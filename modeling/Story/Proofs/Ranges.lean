import Story.Proofs.Statements
import Story.Proofs.Placeholders
import Story.Syntax.Outline

/-!
# The ranges of a tree

Every node of an outline has a span. `parseModule_ranges` says how the spans lie in the text: they start
and stop between tokens, a node covers all that is below it, and of two children of a node the first ends
before the second starts. A list without its closing bracket covers its opening bracket only, and its items
come after it.

The imports of a story are listed once more at its end, in the order in which they were recorded. One that
stands in the path of another import is recorded before it, so two imports may overlap: then the earlier
one is inside the later one.

* `Outline.Sound` — what a single node has to be like;
* `Outline.Laid p q os` — the nodes `os` lie between `p` and `q` in this order, and all below them is
  sound;
* `Drawn cs os` — `os` are outlines of the components `cs`. All kinds of nodes are gone through here
  (`Node.drawn`), and nowhere else;
* `Reads.laid` — what is read between two spots lies there.
-/

namespace Story

/-! ### Places between tokens -/

/-- **A place between two tokens of a text:** some of the tokens come before it and the others after it,
and going over the text before it leads there. -/
def IsBoundary (text : String) (p : Position) : Prop :=
  ∃ before after, splitComments (scan text) = before ++ after ∧
    text = Token.joined before ++ Token.joined after ∧ p = Position.zero.advance (Token.joined before)

theorem Token.Path.stop_eq_advance {p q : Position} {ts : List Token} (h : Token.Path p ts q) :
    q = p.advance (Token.joined ts) := by
  induction ts generalizing p with
  | nil => exact h.symm
  | cons t ts ih =>
    obtain ⟨rfl, h⟩ := h
    rw [Token.joined_cons, Position.advance_append]
    exact ih h

theorem Token.joined_ofChars (p : Position) (cs : List Char) :
    Token.joined (Token.ofChars p cs) = String.ofList cs := by
  induction cs generalizing p with
  | nil => rfl
  | cons c cs ih =>
    apply String.toList_injective
    rw [Token.ofChars, Token.joined_cons, ih]
    simp

theorem Token.joined_signs (t : Token) : Token.joined t.signs = t.text := by
  unfold Token.signs
  split
  · rw [Token.joined_ofChars, String.ofList_toList]
  · rw [Token.joined_cons, Token.joined_nil, String.append_empty]

theorem joined_splitComments (ts : List Token) : Token.joined (splitComments ts) = Token.joined ts := by
  induction ts with
  | nil => rfl
  | cons t ts ih =>
    rw [splitComments, List.flatMap_cons, Token.joined_append, ← splitComments, ih, Token.joined_signs,
      Token.joined_cons]

theorem joined_scan (text : String) : Token.joined (scan text) = text := by
  have hscan := Scanner.tokenizes_tokens TokenKind.spellings_lawful text.toList .zero
  exact String.toList_injective hscan.joined

/-- Whatever is read of a text ends between two tokens. -/
theorem isBoundary_of_onward {text : String} {indentSize : Nat} {a : Spot}
    (h : (State.ofText text indentSize).spot.Onward a) : IsBoundary text a.position := by
  have hplaced := (State.placed_ofText text indentSize).spot
  obtain ⟨ts, hts, hpath, -⟩ := hplaced.path_read h
  have hstart : (State.ofText text indentSize).spot.position = .zero :=
    State.position_ofText text indentSize
  rw [hstart] at hpath
  have htokens := (State.ofText_spec text indentSize).1
  -- The tokens that were read come before those that are left, and together they are all of the text.
  have hsplit : splitComments (scan text) = ts ++ (a.rest ++ [.endfile a.finish]) := by
    rw [htokens, ← List.append_assoc, h.finish]
    exact congrArg (· ++ _) hts
  refine ⟨ts, _, hsplit, ?_, hpath.stop_eq_advance⟩
  rw [← Token.joined_append, ← hsplit, joined_splitComments, joined_scan]

/-! ### Outlines that lie in a text -/

/-- The first stretch of text is inside the second one. -/
def Span.LiesIn (s t : Span) : Prop := t.start.offset ≤ s.start.offset ∧ s.stop.offset ≤ t.stop.offset

namespace Outline

mutual

/-- A node and all nodes below it. -/
def nodes : Outline → List Outline
  | node role kind span attributes children =>
    node role kind span attributes children :: nodesOfAll children

/-- Several nodes and all nodes below them. -/
def nodesOfAll : List Outline → List Outline
  | [] => []
  | o :: os => nodes o ++ nodesOfAll os

end

/-- Whether the node is a list without its closing bracket. -/
def isUnclosed (o : Outline) : Bool := o.kind == .scope && o.attributes.contains ("close", "none")

/-- The first node, with all that is below it, comes before the second one. -/
def Before (o o' : Outline) : Prop :=
  ∀ d ∈ o.nodes, ∀ d' ∈ o'.nodes, d.span.stop.offset ≤ d'.span.start.offset

/-- **A node where it belongs.** Its span starts and stops at places `IsPlace` tells. It covers everything
below it, unless it is a list without its closing bracket; then it covers its opening bracket, and what is
below it comes later. Its children follow each other. -/
structure Sound (IsPlace : Position → Prop) (o : Outline) : Prop where
  start : IsPlace o.span.start
  stop : IsPlace o.span.stop
  le : o.span.start.offset ≤ o.span.stop.offset
  covers : o.isUnclosed = false → ∀ d ∈ nodesOfAll o.children, d.span.LiesIn o.span
  opens : o.isUnclosed = true → ("open", o.span.exact) ∈ o.attributes ∧
    ∀ d ∈ nodesOfAll o.children, o.span.stop.offset ≤ d.span.start.offset
  ordered : o.children.Pairwise Before

/-- The nodes lie between two places, one after the other, and all is sound. -/
structure Laid (IsPlace : Position → Prop) (p q : Nat) (os : List Outline) : Prop where
  sound : ∀ d ∈ nodesOfAll os, d.Sound IsPlace
  between : ∀ d ∈ nodesOfAll os, p ≤ d.span.start.offset ∧ d.span.stop.offset ≤ q
  ordered : os.Pairwise Before

theorem nodesOfAll_append (os os' : List Outline) :
    nodesOfAll (os ++ os') = nodesOfAll os ++ nodesOfAll os' := by
  induction os with
  | nil => rfl
  | cons o os ih => rw [List.cons_append, nodesOfAll, nodesOfAll, ih, List.append_assoc]

theorem nodesOfAll_singleton (o : Outline) : nodesOfAll [o] = o.nodes := List.append_nil _

theorem nodes_eq (o : Outline) : o.nodes = o :: nodesOfAll o.children := by
  cases o
  rfl

theorem mem_nodesOfAll {os : List Outline} {d : Outline} : d ∈ nodesOfAll os ↔ ∃ o ∈ os, d ∈ o.nodes := by
  induction os with
  | nil => simp [nodesOfAll]
  | cons o os ih => simp [nodesOfAll, ih]

namespace Laid

variable {IsPlace : Position → Prop} {p q r : Nat} {os os' : List Outline}

theorem nil : Laid IsPlace p q [] := ⟨nofun, nofun, .nil⟩

theorem append (h : Laid IsPlace p q os) (h' : Laid IsPlace q r os') (hpq : p ≤ q) (hqr : q ≤ r) :
    Laid IsPlace p r (os ++ os') where
  sound := by
    rw [nodesOfAll_append]
    exact List.forall_mem_append.mpr ⟨h.sound, h'.sound⟩
  between := by
    rw [nodesOfAll_append, List.forall_mem_append]
    refine ⟨fun d hd => ?_, fun d hd => ?_⟩
    · obtain ⟨hp, hq⟩ := h.between d hd
      exact ⟨hp, hq.trans hqr⟩
    · obtain ⟨hq, hr⟩ := h'.between d hd
      exact ⟨hpq.trans hq, hr⟩
  ordered := by
    -- What is drawn first stops at or before `q`, and what is drawn last starts there.
    refine List.pairwise_append.mpr ⟨h.ordered, h'.ordered, fun o ho o' ho' d hd d' hd' => ?_⟩
    have hstop := (h.between d (mem_nodesOfAll.mpr ⟨o, ho, hd⟩)).2
    have hstart := (h'.between d' (mem_nodesOfAll.mpr ⟨o', ho', hd'⟩)).1
    exact hstop.trans hstart

theorem widen (h : Laid IsPlace p q os) {p' q' : Nat} (hp : p' ≤ p) (hq : q ≤ q') :
    Laid IsPlace p' q' os where
  sound := h.sound
  between d hd := ⟨hp.trans (h.between d hd).1, (h.between d hd).2.trans hq⟩
  ordered := h.ordered

/-- A sound node with all that is below it. -/
theorem singleton {o : Outline} (ho : o.Sound IsPlace) (hbelow : ∀ d ∈ nodesOfAll o.children, d.Sound IsPlace)
    (hself : p ≤ o.span.start.offset ∧ o.span.stop.offset ≤ q)
    (hbetween : ∀ d ∈ nodesOfAll o.children, p ≤ d.span.start.offset ∧ d.span.stop.offset ≤ q) :
    Laid IsPlace p q [o] where
  sound := by
    rw [nodesOfAll_singleton, nodes_eq]
    exact List.forall_mem_cons.mpr ⟨ho, hbelow⟩
  between := by
    rw [nodesOfAll_singleton, nodes_eq]
    exact List.forall_mem_cons.mpr ⟨hself, hbetween⟩
  ordered := List.pairwise_singleton _ o

/-- A node that covers what is below it. -/
theorem node {role : String} {kind : NodeKind} (span : Span) {attributes : List (String × String)}
    (h : Laid IsPlace span.start.offset span.stop.offset os) (hstart : IsPlace span.start)
    (hstop : IsPlace span.stop) (hle : span.start.offset ≤ span.stop.offset)
    (hclosed : (Outline.node role kind span attributes os).isUnclosed = false) :
    Laid IsPlace span.start.offset span.stop.offset [.node role kind span attributes os] := by
  refine singleton ⟨hstart, hstop, hle, fun _ => h.between, fun hopen => ?_, h.ordered⟩ h.sound
    ⟨le_rfl, le_rfl⟩ h.between
  rw [hclosed] at hopen
  cases hopen

/-- A list without its closing bracket. -/
theorem unclosed {role : String} (opening : Span) (h : Laid IsPlace opening.stop.offset q os)
    (hstart : IsPlace opening.start) (hstop : IsPlace opening.stop)
    (hle : opening.start.offset ≤ opening.stop.offset) (hq : opening.stop.offset ≤ q) :
    Laid IsPlace opening.start.offset q [(Brackets.mk opening none).outline role os] := by
  rw [Brackets.outline, Brackets.span_open]
  refine singleton ⟨hstart, hstop, hle, fun hclosed => ?_, fun _ => ⟨?_, ?_⟩, h.ordered⟩ h.sound
    ⟨le_rfl, hq⟩ fun d hd => ?_
  · cases hclosed
  · exact List.mem_cons_self
  · exact fun d hd => (h.between d hd).1
  · exact ⟨hle.trans (h.between d hd).1, (h.between d hd).2⟩

end Laid

end Outline

/-- A list that is closed says so. -/
theorem Brackets.isUnclosed_outline (role : String) (opening closing : Span) (os : List Outline) :
    ((Brackets.mk opening (some closing)).outline role os).isUnclosed = false := by
  have hexact : closing.exact ≠ "none" := by
    intro heq
    have hsign : '@' ∈ closing.exact.toList := by
      have htext : toString "@" = "@" := rfl
      simp [Span.exact, Position.exact, htext]
    rw [heq] at hsign
    revert hsign
    decide
  simp [Outline.isUnclosed, Brackets.outline, Outline.attributes, Outline.optional, hexact.symm]

/-! ### The outlines of components -/

/-- The outlines of a node, if it has the given role in its parent. -/
def Node.outlines (role : String) : Node → List Outline
  | .expression e => [e.outline role]
  | .part p => [p.outline]
  | .property p => [p.outline]
  | .parameter p => [p.outline]
  | .block b => [b.outline role]
  | .statement s => [s.outline role]
  | .declarator d => [d.outline]
  | .head h => h.outline role
  | .clause c => [c.outline]
  | .key k => [k.outline]
  | .tag t => [t.outline]
  | .prototype p => p.outline
  | .line l => [l.outline role]

/-- **`Drawn cs os`:** the nodes `os` are outlines of the components `cs`, whatever they are to their
parents. Nodes may be left out. -/
inductive Drawn : List Component → List Outline → Prop where
  | nil : Drawn [] []
  | node (n : Node) (role : String) {cs : List Component} {os : List Outline} (h : Drawn cs os) :
      Drawn (.node n :: cs) (n.outlines role ++ os)
  | omitted (n : Node) {cs : List Component} {os : List Outline} (h : Drawn cs os) :
      Drawn (.node n :: cs) os
  | mark {role : String} {kind : NodeKind} {span : Span} {attributes : List (String × String)}
      {cs : List Component} {os : List Outline} (hkind : kind ≠ .scope) (h : Drawn cs os) :
      Drawn (.mark span :: cs) (.node role kind span attributes [] :: os)
  | inner {role : String} {kind : NodeKind} {span : Span} {attributes : List (String × String)}
      {ns : List Node} {inside : List Outline} {cs : List Component} {os : List Outline}
      (hkind : kind ≠ .scope) (hinside : Drawn (ns.map .node) inside) (h : Drawn cs os) :
      Drawn (.inner span ns :: cs) (.node role kind span attributes inside :: os)
  /-- One stretch of text may be the place of two nodes, one of them inside the other. -/
  | twice {role role' : String} {kind kind' : NodeKind} {span : Span}
      {attributes attributes' : List (String × String)} {ns : List Node} {inside : List Outline}
      {cs : List Component} {os : List Outline} (hkind : kind ≠ .scope) (hkind' : kind' ≠ .scope)
      (hinside : Drawn (ns.map .node) inside) (h : Drawn cs os) :
      Drawn (.inner span ns :: cs)
        (.node role kind span attributes [.node role' kind' span attributes' inside] :: os)
  | list (role : String) {brackets : Brackets} {ns : List Node} {inside : List Outline}
      {cs : List Component} {os : List Outline} (hinside : Drawn (ns.map .node) inside)
      (h : Drawn cs os) : Drawn (.list brackets ns :: cs) (brackets.outline role inside :: os)

namespace Drawn

variable {cs ds : List Component} {os os' : List Outline}

theorem append (h : Drawn cs os) (h' : Drawn ds os') : Drawn (cs ++ ds) (os ++ os') := by
  induction h with
  | nil => exact h'
  | node n role _ ih =>
    rw [List.append_assoc]
    exact ih.node n role
  | omitted n _ ih => exact ih.omitted n
  | mark hkind _ ih => exact .mark hkind ih
  | inner hkind hinside _ _ ih => exact .inner hkind hinside ih
  | twice hkind hkind' hinside _ _ ih => exact .twice hkind hkind' hinside ih
  | list role hinside _ _ ih => exact .list role hinside ih

theorem split (h : Drawn (cs ++ ds) os) :
    ∃ os₁ os₂, os = os₁ ++ os₂ ∧ Drawn cs os₁ ∧ Drawn ds os₂ := by
  -- By induction on the first components; each of them has drawn its own outlines, none, one or more.
  induction cs generalizing os with
  | nil => exact ⟨[], os, rfl, .nil, h⟩
  | cons c cs ih =>
    cases h with
    | node n role h =>
      obtain ⟨os₁, os₂, rfl, h₁, h₂⟩ := ih h
      exact ⟨_, os₂, (List.append_assoc ..).symm, h₁.node n role, h₂⟩
    | omitted n h =>
      obtain ⟨os₁, os₂, rfl, h₁, h₂⟩ := ih h
      exact ⟨os₁, os₂, rfl, h₁.omitted n, h₂⟩
    | mark hkind h =>
      obtain ⟨os₁, os₂, rfl, h₁, h₂⟩ := ih h
      exact ⟨_, os₂, rfl, .mark hkind h₁, h₂⟩
    | inner hkind hinside h =>
      obtain ⟨os₁, os₂, rfl, h₁, h₂⟩ := ih h
      exact ⟨_, os₂, rfl, .inner hkind hinside h₁, h₂⟩
    | twice hkind hkind' hinside h =>
      obtain ⟨os₁, os₂, rfl, h₁, h₂⟩ := ih h
      exact ⟨_, os₂, rfl, .twice hkind hkind' hinside h₁, h₂⟩
    | list role hinside h =>
      obtain ⟨os₁, os₂, rfl, h₁, h₂⟩ := ih h
      exact ⟨_, os₂, rfl, .list role hinside h₁, h₂⟩

theorem allOmitted (ns : List Node) : Drawn (ns.map .node) [] := by
  induction ns with
  | nil => exact .nil
  | cons n ns ih => exact ih.omitted n

/-! The outlines of single nodes, of lists of them, and of those that may be absent. -/

theorem expression (e : Expression) (role : String) (h : Drawn cs os) :
    Drawn (.node (.expression e) :: cs) (e.outline role :: os) := h.node (.expression e) role

theorem statement (x : Statement) (role : String) (h : Drawn cs os) :
    Drawn (.node (.statement x) :: cs) (x.outline role :: os) := h.node (.statement x) role

theorem block (b : Block) (role : String) (h : Drawn cs os) :
    Drawn (.node (.block b) :: cs) (b.outline role :: os) := h.node (.block b) role

theorem items {α : Type} {F : α → Node} (role : String) {outlines : List α → List Outline}
    (hnil : outlines [] = []) (hcons : ∀ x xs, outlines (x :: xs) = (F x).outlines role ++ outlines xs)
    (xs : List α) : Drawn ((xs.map F).map .node) (outlines xs) := by
  induction xs with
  | nil => exact hnil ▸ .nil
  | cons x xs ih => exact hcons x xs ▸ ih.node (F x) role

theorem expressions (es : List Expression) :
    Drawn ((es.map Node.expression).map .node) (Expression.outlines es) :=
  items "item" rfl (fun _ _ => rfl) es

theorem parts (ps : List TextPart) : Drawn ((ps.map Node.part).map .node) (TextPart.outlines ps) :=
  items "" rfl (fun _ _ => rfl) ps

theorem properties (ps : List Property) :
    Drawn ((ps.map Node.property).map .node) (Property.outlines ps) :=
  items "" rfl (fun _ _ => rfl) ps

theorem parameters (ps : List Parameter) :
    Drawn ((ps.map Node.parameter).map .node) (Parameter.outlines ps) :=
  items "" rfl (fun _ _ => rfl) ps

theorem statements (xs : List Statement) :
    Drawn ((xs.map Node.statement).map .node) (Statement.outlines xs) :=
  items "item" rfl (fun _ _ => rfl) xs

theorem declarators (ds : List Declarator) :
    Drawn ((ds.map Node.declarator).map .node) (Declarator.outlines ds) :=
  items "" rfl (fun _ _ => rfl) ds

theorem clauses (xs : List Clause) : Drawn ((xs.map Node.clause).map .node) (Clause.outlines xs) :=
  items "" rfl (fun _ _ => rfl) xs

theorem tags (ts : List Tag) : Drawn ((ts.map Node.tag).map .node) (Tag.outlines ts) :=
  items "" rfl (fun _ _ => rfl) ts

theorem lines (role : String) (ls : List Line) :
    Drawn ((ls.map Node.line).map .node) (Line.outlines role ls) :=
  items role rfl (fun _ _ => rfl) ls

theorem optional (role : String) (value : Option Expression) :
    Drawn ((value.toList.map Node.expression).map .node) (Expression.outlineOption role value) := by
  cases value with
  | none => exact .nil
  | some e => exact .expression e role .nil

end Drawn

namespace Node

/-- The outline of a node is one node at its span, with the outlines of its components below it. -/
def DrawnBelow (n : Node) (os : List Outline) : Prop :=
  ∃ role kind span attributes inside, os = [.node role kind span attributes inside] ∧
    n.span? = some span ∧ kind ≠ .scope ∧ Drawn n.components inside

theorem drawn_expression (e : Expression) (role : String) :
    (Node.expression e).DrawnBelow ((Node.expression e).outlines role) := by
  cases e with
  | number | boolean | keyword | missing => exact ⟨_, _, _, _, _, rfl, rfl, by decide, .nil⟩
  | name _ kind => exact ⟨_, _, _, _, _, rfl, rfl, by cases kind <;> decide, .nil⟩
  | string _ _ parts => exact ⟨_, _, _, _, _, rfl, rfl, by decide, .parts parts⟩
  | array _ _ elements =>
    exact ⟨_, _, _, _, _, rfl, rfl, by decide, .list "elements" (.expressions elements) .nil⟩
  | object _ _ properties =>
    exact ⟨_, _, _, _, _, rfl, rfl, by decide, .list "properties" (.properties properties) .nil⟩
  | binary _ left _ right =>
    exact ⟨_, _, _, _, _, rfl, rfl, by decide, .expression left "left" (.expression right "right" .nil)⟩
  | member _ object =>
    exact ⟨_, _, _, _, _, rfl, rfl, by decide, .expression object "object" .nil⟩
  | index _ object index =>
    exact ⟨_, _, _, _, _, rfl, rfl, by decide, .expression object "object" (.expression index "index" .nil)⟩
  | call _ callee _ arguments =>
    exact ⟨_, _, _, _, _, rfl, rfl, by decide,
      .expression callee "callee" (.list "arguments" (.expressions arguments) .nil)⟩
  | update _ _ _ operand | unary _ _ operand =>
    exact ⟨_, _, _, _, _, rfl, rfl, by decide, .expression operand "operand" .nil⟩
  | operation _ operator operand =>
    exact ⟨_, _, _, _, _, rfl, rfl, by cases operator <;> decide, .expression operand "expression" .nil⟩
  | conditional _ condition whenTrue whenFalse =>
    exact ⟨_, _, _, _, _, rfl, rfl, by decide, .expression condition "condition"
      (.expression whenTrue "whenTrue" (.expression whenFalse "whenFalse" .nil))⟩
  | paren _ inner | spread _ inner =>
    exact ⟨_, _, _, _, _, rfl, rfl, by decide, .expression inner "expression" .nil⟩
  | new _ callee brackets arguments =>
    cases brackets with
    | some brackets =>
      exact ⟨_, _, _, _, _, rfl, rfl, by decide,
        .expression callee "callee" (.list "arguments" (.expressions arguments) .nil)⟩
    | none =>
      -- Arguments are shown in their brackets only.
      exact ⟨_, _, _, _, _, rfl, rfl, by decide, .expression callee "callee" (.allOmitted _)⟩
  | yield _ _ value =>
    exact ⟨_, _, _, _, _, rfl, rfl, by decide, .optional "expression" value⟩
  | function _ _ _ _ _ parameters body | arrowBlock _ _ _ parameters body =>
    exact ⟨_, _, _, _, _, rfl, rfl, by decide,
      .list "parameters" (.parameters parameters) (.block body "body" .nil)⟩
  | arrowValue _ _ _ parameters body =>
    exact ⟨_, _, _, _, _, rfl, rfl, by decide,
      .list "parameters" (.parameters parameters) (.expression body "body" .nil)⟩

theorem drawn_property (p : Property) (role : String) :
    (Node.property p).DrawnBelow ((Node.property p).outlines role) := by
  cases p with
  | named _ _ value | numbered _ _ value | spread _ value =>
    exact ⟨_, _, _, _, _, rfl, rfl, by decide, .expression value "value" .nil⟩
  | quoted _ _ _ parts value =>
    exact ⟨_, _, _, _, _, rfl, rfl, by decide,
      .inner (by decide) (.parts parts) (.expression value "value" .nil)⟩
  | computed _ key value =>
    exact ⟨_, _, _, _, _, rfl, rfl, by decide, .expression key "key" (.expression value "value" .nil)⟩

theorem drawn_block (b : Block) (role : String) :
    (Node.block b).DrawnBelow ((Node.block b).outlines role) := by
  cases b with
  | code _ _ statements =>
    exact ⟨_, _, _, _, _, rfl, rfl, by decide, .list "scope" (.statements statements) .nil⟩
  | template _ _ lines =>
    exact ⟨_, _, _, _, _, rfl, rfl, by decide, .list "scope" (.lines "item" lines) .nil⟩

theorem drawn_line (l : Line) (role : String) :
    (Node.line l).DrawnBelow ((Node.line l).outlines role) := by
  cases l with
  | object _ _ _ key proto tags value =>
    -- The key, the prototype, the tags and the value are drawn under one node for the body.
    have hbody : Drawn ((Node.key key :: Node.prototype proto ::
        (tags.map Node.tag ++ value.toList.map Node.expression)).map .node)
        (key.outline :: (proto.outline ++ Tag.outlines tags ++
          Expression.outlineOption "initializer" value)) := by
      have htail := (Drawn.tags tags).append (.optional "initializer" value)
      rw [← List.map_append] at htail
      rw [List.append_assoc]
      exact (htail.node (.prototype proto) "").node (.key key) ""
    exact ⟨_, _, _, _, _, rfl, rfl, by decide, .mark (by decide) (.inner (by decide) hbody .nil)⟩
  | delete _ _ _ key =>
    exact ⟨_, _, _, _, _, rfl, rfl, by decide,
      -- The key of a line that deletes is drawn under two nodes of its own.
      .mark (by decide) (.twice (by decide) (by decide) (.node (.key key) "" .nil) .nil)⟩
  | code _ _ body =>
    exact ⟨_, _, _, _, _, rfl, rfl, by decide, .mark (by decide) (.statement body "statement" .nil)⟩
  | text _ _ parts =>
    exact ⟨_, _, _, _, _, rfl, rfl, by decide, .mark (by decide) (.parts parts)⟩
  | comment => exact ⟨_, _, _, _, _, rfl, rfl, by decide, .mark (by decide) .nil⟩

/-- Most statements have a node of their own; a block that is a statement does not. -/
theorem drawn_statement (x : Statement) (role : String) :
    (Node.statement x).DrawnBelow ((Node.statement x).outlines role) ∨
      Drawn (Node.statement x).components ((Node.statement x).outlines role) := by
  cases x with
  | block body => exact .inr (.block body role .nil)
  | leave | next | debugger | empty | missing | imported =>
    exact .inl ⟨_, _, _, _, _, rfl, rfl, by decide, .nil⟩
  | expression value | throw _ value =>
    exact .inl ⟨_, _, _, _, _, rfl, rfl, by decide, .expression value "expression" .nil⟩
  | «variable» _ _ declarators =>
    exact .inl ⟨_, _, _, _, _, rfl, rfl, by decide, .declarators declarators⟩
  | function _ name _ _ _ parameters body =>
    have hkind : (if name.isRaw then NodeKind.rawIdentifier else .contextIdentifier) ≠ .scope := by
      split <;> decide
    exact .inl ⟨_, _, _, _, _, rfl, rfl, by decide,
      .mark hkind (.list "parameters" (.parameters parameters) (.block body "body" .nil))⟩
  | ifElse _ condition whenTrue whenFalse =>
    refine .inl ⟨_, _, _, _, _, rfl, rfl, by decide,
      .expression condition "condition" (.statement whenTrue "then" ?_)⟩
    cases whenFalse with
    | none => exact .nil
    | some whenFalse => exact .statement whenFalse "else" .nil
  | switch _ value body =>
    exact .inl ⟨_, _, _, _, _, rfl, rfl, by decide,
      .expression value "discriminant" (.block body "body" .nil)⟩
  | label _ value => exact .inl ⟨_, _, _, _, _, rfl, rfl, by decide, .optional "test" value⟩
  | result _ value => exact .inl ⟨_, _, _, _, _, rfl, rfl, by decide, .optional "expression" value⟩
  | whileLoop _ condition body =>
    exact .inl ⟨_, _, _, _, _, rfl, rfl, by decide,
      .expression condition "condition" (.statement body "body" .nil)⟩
  | doLoop _ body condition =>
    exact .inl ⟨_, _, _, _, _, rfl, rfl, by decide,
      .statement body "body" (.expression condition "condition" .nil)⟩
  | forLoop _ head condition update body =>
    refine .inl ⟨_, _, _, _, _, rfl, rfl, by decide, ?_⟩
    -- The optional parts are drawn in their places, if they are there.
    have hvalues := (Drawn.optional "condition" condition).append (.optional "update" update)
    have htail := hvalues.append (.statement body "body" .nil)
    have hall := htail.node (.head head) "initializer"
    simpa [components, children, Statement.children, outlines] using hall
  | forIn _ head value body | forOf _ _ head value body =>
    exact .inl ⟨_, _, _, _, _, rfl, rfl, by decide,
      .node (.head head) "binding" (.expression value "expression" (.statement body "body" .nil))⟩
  | attempt _ body clauses =>
    exact .inl ⟨_, _, _, _, _, rfl, rfl, by decide, .block body "block" (.clauses clauses)⟩

/-- **The outline of every node:** a node at its span with the outlines of its components below it, or no
more than those. -/
theorem drawn (n : Node) (role : String) :
    n.DrawnBelow (n.outlines role) ∨ Drawn n.components (n.outlines role) := by
  cases n with
  | expression e => exact .inl (drawn_expression e role)
  | property p => exact .inl (drawn_property p role)
  | block b => exact .inl (drawn_block b role)
  | line l => exact .inl (drawn_line l role)
  | statement x => exact drawn_statement x role
  | part p =>
    cases p with
    | chunk => exact .inl ⟨_, _, _, _, _, rfl, rfl, by decide, .nil⟩
    | splice _ value =>
      exact .inl ⟨_, _, _, _, _, rfl, rfl, by decide, .expression value "expression" .nil⟩
  | parameter p =>
    obtain ⟨_, _, _, value⟩ := p
    exact .inl ⟨_, _, _, _, _, rfl, rfl, by decide, .optional "default" value⟩
  | declarator d =>
    obtain ⟨_, name, value⟩ := d
    have hkind : (if name.isRaw then NodeKind.rawIdentifier else .contextIdentifier) ≠ .scope := by
      split <;> decide
    exact .inl ⟨_, _, _, _, _, rfl, rfl, by decide, .mark hkind (.optional "initializer" value)⟩
  | head h =>
    cases h with
    | nothing => exact .inr .nil
    | «variable» _ _ declarators =>
      exact .inl ⟨_, _, _, _, _, rfl, rfl, by decide, .declarators declarators⟩
    | expression value => exact .inr (.expression value role .nil)
  | clause c =>
    cases c with
    | handler _ _ body | finalizer _ body =>
      exact .inl ⟨_, _, _, _, _, rfl, rfl, by decide, .block body "block" .nil⟩
  | key k =>
    cases k with
    | word => exact .inl ⟨_, _, _, _, _, rfl, rfl, by decide, .nil⟩
    | quoted _ parts => exact .inl ⟨_, _, _, _, _, rfl, rfl, by decide, .parts parts⟩
  | tag t =>
    obtain ⟨_, _, value⟩ := t
    exact .inl ⟨_, _, _, _, _, rfl, rfl, by decide, .optional "value" value⟩
  | prototype p =>
    cases p with
    | nothing => exact .inr .nil
    | inherits _ value =>
      exact .inl ⟨_, _, _, _, _, rfl, rfl, by decide, .expression value "expression" .nil⟩

end Node

/-! ### Recorded imports -/

/-- Imports that were recorded between two places, the latest first. Each of them comes after the ones
before it, or they are inside it. -/
structure Recorded (IsPlace : Position → Prop) (p q : Nat) (imports : List Import) : Prop where
  placed : ∀ i ∈ imports, IsPlace i.span.start ∧ IsPlace i.span.stop ∧
    i.span.start.offset < i.span.stop.offset
  between : ∀ i ∈ imports, p ≤ i.span.start.offset ∧ i.span.stop.offset ≤ q
  ordered : imports.Pairwise fun i j => j.span.stop.offset ≤ i.span.start.offset ∨
    i.span.start.offset < j.span.start.offset ∧ j.span.stop.offset ≤ i.span.stop.offset

namespace Recorded

variable {IsPlace : Position → Prop} {p q r : Nat} {imports imports' : List Import}

theorem nil : Recorded IsPlace p q [] := ⟨nofun, nofun, .nil⟩

theorem widen (h : Recorded IsPlace p q imports) {p' q' : Nat} (hp : p' ≤ p) (hq : q ≤ q') :
    Recorded IsPlace p' q' imports where
  placed := h.placed
  between i hi := ⟨hp.trans (h.between i hi).1, (h.between i hi).2.trans hq⟩
  ordered := h.ordered

theorem append (h : Recorded IsPlace p q imports) (h' : Recorded IsPlace q r imports') (hpq : p ≤ q)
    (hqr : q ≤ r) : Recorded IsPlace p r (imports' ++ imports) where
  placed := List.forall_mem_append.mpr ⟨h'.placed, h.placed⟩
  between := List.forall_mem_append.mpr ⟨(h'.widen hpq le_rfl).between, (h.widen le_rfl hqr).between⟩
  ordered := List.pairwise_append.mpr ⟨h'.ordered, h.ordered, fun i hi j hj =>
    .inl ((h.between j hj).2.trans (h'.between i hi).1)⟩

/-- An import is recorded after those in its path. -/
theorem cons (i : Import) (h : Recorded IsPlace p i.span.stop.offset imports)
    (hstart : IsPlace i.span.start) (hstop : IsPlace i.span.stop) (hlt : i.span.start.offset < p)
    (hle : p ≤ i.span.stop.offset) :
    Recorded IsPlace i.span.start.offset i.span.stop.offset (i :: imports) where
  placed := List.forall_mem_cons.mpr ⟨⟨hstart, hstop, hlt.trans_le hle⟩, h.placed⟩
  between := List.forall_mem_cons.mpr ⟨⟨le_rfl, le_rfl⟩, (h.widen hlt.le le_rfl).between⟩
  ordered := List.pairwise_cons.mpr ⟨fun j hj => .inr
    ⟨hlt.trans_le (h.between j hj).1, (h.between j hj).2⟩, h.ordered⟩

theorem reverse_ordered (h : Recorded IsPlace p q imports) :
    imports.reverse.Pairwise fun i j =>
      i.span.stop.offset ≤ j.span.start.offset ∨ i.span.LiesIn j.span :=
  List.pairwise_reverse.mpr (h.ordered.imp fun h => h.imp_right fun h => ⟨h.1.le, h.2⟩)

/-- Nothing is recorded twice. -/
theorem nodup (h : Recorded IsPlace p q imports) : imports.Nodup := by
  refine h.ordered.imp_of_mem fun {i j} hi _ hor heq => ?_
  subst heq
  obtain ⟨-, -, hlt⟩ := h.placed i hi
  obtain hle | ⟨hself, -⟩ := hor
  · exact absurd hlt (Nat.not_lt.mpr hle)
  · exact absurd hself (Nat.lt_irrefl _)

/-- The outline of an import has nothing below it. -/
theorem outline (h : Recorded IsPlace p q imports) {role : String} {o : Outline}
    (ho : o ∈ Outline.nodesOfAll (imports.reverse.map (Import.outline role))) :
    o.Sound IsPlace ∧ p ≤ o.span.start.offset ∧ o.span.stop.offset ≤ q := by
  obtain ⟨_, hmap, ho⟩ := Outline.mem_nodesOfAll.mp ho
  obtain ⟨i, hreverse, rfl⟩ := List.mem_map.mp hmap
  obtain rfl : o = i.outline role := List.mem_singleton.mp ho
  have hi : i ∈ imports := List.mem_reverse.mp hreverse
  obtain ⟨hstart, hstop, hle⟩ := h.placed i hi
  -- Brackets are not part of an import, so none of them are open.
  have hclosed : (i.outline role).isUnclosed = false := rfl
  refine ⟨⟨hstart, hstop, hle.le, fun _ => nofun, fun hopen => ?_, .nil⟩, h.between i hi⟩
  rw [hclosed] at hopen
  cases hopen

end Recorded

/-- Only imports are recorded. -/
theorem Node.records_cases (n : Node) : n.records = [] ∨ ∃ i, n = .statement (.imported i) := by
  cases n with
  | statement x =>
    cases x with
    | imported i => exact .inr ⟨i, rfl⟩
    | _ => exact .inl rfl
  | _ => exact .inl rfl

/-! ### What is read lies where it is read -/

section Reads

open Outline (Laid)

variable {start a b : Spot} {IsPlace : Position → Prop} {cs : List Component} {os : List Outline}

theorem isUnclosed_eq_false {role : String} {kind : NodeKind} {span : Span}
    {attributes : List (String × String)} (hkind : kind ≠ .scope) :
    (Outline.node role kind span attributes os).isUnclosed = false := by
  rw [Outline.isUnclosed, Bool.and_eq_false_iff]
  exact .inl (beq_eq_false_iff_ne.mpr hkind)

variable (hplaced : start.Placed) (hplace : ∀ c, start.Onward c → IsPlace c.position)
include hplaced hplace

/-- A node that covers what is read between two spots. -/
theorem laid_between (ha : start.Onward a) (hab : a.Onward b)
    (h : Laid IsPlace a.position.offset b.position.offset os) {role : String} {kind : NodeKind}
    {attributes : List (String × String)}
    (hclosed : (Outline.node role kind ⟨a.position, b.position⟩ attributes os).isUnclosed = false) :
    Laid IsPlace a.position.offset b.position.offset
      [.node role kind ⟨a.position, b.position⟩ attributes os] :=
  .node ⟨a.position, b.position⟩ h (hplace a ha) (hplace b (ha.trans hab))
    ((hplaced.onward ha).offset_le hab) hclosed

/-- **What is read between two spots lies there,** and everything below it is sound. -/
theorem Reads.laid (h : Reads a cs b) (ha : start.Onward a) (hos : Drawn cs os) :
    Laid IsPlace a.position.offset b.position.offset os := by
  induction h generalizing os with
  | gap =>
    cases hos
    exact .nil
  | append h h' ih ih' =>
    obtain ⟨os₁, os₂, rfl, h₁, h₂⟩ := hos.split
    have hb := ha.trans h.onward
    exact (ih ha h₁).append (ih' hb h₂) ((hplaced.onward ha).offset_le h.onward)
      ((hplaced.onward hb).offset_le h'.onward)
  | mark h =>
    cases hos with
    | mark hkind hos =>
      cases hos
      exact laid_between hplaced hplace ha h.toOnward .nil (isUnclosed_eq_false hkind)
  | inner h ih =>
    cases hos with
    | inner hkind hinside hos =>
      cases hos
      exact laid_between hplaced hplace ha h.onward (ih ha hinside) (isUnclosed_eq_false hkind)
    | twice hkind hkind' hinside hos =>
      cases hos
      refine laid_between hplaced hplace ha h.onward ?_ (isUnclosed_eq_false hkind)
      exact laid_between hplaced hplace ha h.onward (ih ha hinside) (isUnclosed_eq_false hkind')
  | @list a b c d closing ns hopen h hclose ih =>
    have hb := ha.trans hopen.toOnward
    have hbd := h.onward.trans hclose.passes.toOnward
    have hle := (hplaced.onward ha).offset_le hopen.toOnward
    cases hos with
    | @list role _ _ inside _ _ hinside hos =>
      cases hos
      have hitems : Laid IsPlace b.position.offset d.position.offset inside :=
        (ih hb hinside).widen le_rfl ((hplaced.onward (hb.trans h.onward)).offset_le
          hclose.passes.toOnward)
      cases closing with
      | none =>
        exact .unclosed ⟨a.position, b.position⟩ hitems (hplace a ha) (hplace b hb) hle
          ((hplaced.onward hb).offset_le hbd)
      | some span =>
        obtain ⟨m, hm, hd, rfl⟩ := hclose
        have hspan := Brackets.span_closed (hplaced.onward ha) hopen.toOnward
          (h.onward.trans hm.toOnward) hd.toOnward
        have hclosed := Brackets.isUnclosed_outline role ⟨a.position, b.position⟩
          ⟨m.position, d.position⟩ inside
        rw [Brackets.outline, hspan] at hclosed ⊢
        exact laid_between hplaced hplace ha (hopen.toOnward.trans hbd) (hitems.widen hle le_rfl) hclosed
  | @lone a b n h ih =>
    cases hos with
    | @list role _ _ inside _ _ hinside hos =>
      cases hos
      have hspan : (Brackets.mk ⟨a.position, b.position⟩ (some ⟨a.position, b.position⟩)).span =
          ⟨a.position, b.position⟩ := by simp [Brackets.span, Span.union]
      have hclosed := Brackets.isUnclosed_outline role ⟨a.position, b.position⟩
        ⟨a.position, b.position⟩ inside
      rw [Brackets.outline, hspan] at hclosed ⊢
      exact laid_between hplaced hplace ha h.onward (ih ha hinside) hclosed
  | @node a c n hspan _ _ h ih =>
    have hc : a.Onward c := ⟨h.onward.rest, h.onward.finish⟩
    have henter : start.Onward (a.entering n) := ⟨ha.rest, ha.finish⟩
    cases hos with
    | omitted _ hos =>
      cases hos
      exact .nil
    | node _ role hos =>
      cases hos
      rw [List.append_nil]
      obtain ⟨role', kind, span, attributes, inside, heq, hsome, hkind, hinside⟩ | hinside := n.drawn role
      · obtain rfl := hspan span hsome
        rw [heq]
        exact laid_between hplaced hplace ha hc (ih henter hinside) (isUnclosed_eq_false hkind)
      · exact ih henter hinside
  | @path a _ c n ns hpath _ hspan hword _ _ h _ =>
    -- What stands in the path is not in the tree, so the node has nothing below it.
    have hc : a.Onward c := hword.toOnward.trans h.onward
    cases hos with
    | omitted _ hos =>
      cases hos
      exact .nil
    | node _ role hos =>
      cases hos
      rw [List.append_nil]
      obtain ⟨role', kind, span, attributes, inside, heq, hsome, hkind, hinside⟩ | hinside := n.drawn role
      · obtain rfl := hspan span hsome
        rw [Node.components_of_hasPath hpath] at hinside
        cases hinside
        rw [heq]
        exact laid_between hplaced hplace ha hc .nil (isUnclosed_eq_false hkind)
      · rw [Node.components_of_hasPath hpath] at hinside
        generalize n.outlines role = os at hinside ⊢
        cases hinside
        exact .nil

/-- **What is recorded between two spots lies there.** -/
theorem Reads.recorded (h : Reads a cs b) (ha : start.Onward a) :
    ∃ new, b.imports = new ++ a.imports ∧
      Recorded IsPlace a.position.offset b.position.offset new := by
  induction h with
  | gap h | mark h => exact ⟨[], h.imports, .nil⟩
  -- The later imports stand before the earlier ones in the list.
  | append h h' ih ih' =>
    have hb := ha.trans h.onward
    obtain ⟨new, hnew, hrecorded⟩ := ih ha
    obtain ⟨new', hnew', hrecorded'⟩ := ih' hb
    refine ⟨new' ++ new, ?_, hrecorded.append hrecorded' ((hplaced.onward ha).offset_le h.onward)
      ((hplaced.onward hb).offset_le h'.onward)⟩
    rw [hnew', hnew, List.append_assoc]
  | inner _ ih | lone _ ih => exact ih ha
  | @list a b c d closing ns hopen h hclose ih =>
    have hb := ha.trans hopen.toOnward
    obtain ⟨new, hnew, hrecorded⟩ := ih hb
    refine ⟨new, ?_, hrecorded.widen ((hplaced.onward ha).offset_le hopen.toOnward)
      ((hplaced.onward (hb.trans h.onward)).offset_le hclose.passes.toOnward)⟩
    rw [hclose.passes.imports, hnew, hopen.imports]
  -- A node that is no import records nothing itself.
  | node _ hrecords _ _ ih =>
    obtain ⟨new, hnew, hrecorded⟩ := ih ⟨ha.rest, ha.finish⟩
    refine ⟨new, ?_, hrecorded⟩
    rw [Spot.leaving, hrecords]
    exact hnew
  -- An import is recorded after those in its path, and starts before them.
  | @path a b c n ns _ _ hspan hword hlater _ h ih =>
    have hb := ha.trans hword.toOnward
    have hstrict : a.position.offset < b.position.offset := (hplaced.onward ha).offset_lt hword.toOnward hlater
    obtain ⟨new, hnew, hrecorded⟩ := ih hb
    rw [hword.imports] at hnew
    obtain hnone | ⟨i, rfl⟩ := n.records_cases
    · refine ⟨new, ?_, hrecorded.widen hstrict.le le_rfl⟩
      rw [Spot.leaving, hnone]
      exact hnew
    · obtain ⟨span, isIn, name, newName, path⟩ := i
      obtain rfl := hspan span rfl
      exact ⟨_ :: new, congrArg (_ :: ·) hnew,
        .cons ⟨⟨a.position, c.position⟩, isIn, name, newName, path⟩ hrecorded (hplace a ha)
          (hplace c (hb.trans h.onward)) hstrict ((hplaced.onward hb).offset_le h.onward)⟩

end Reads

/-! ### A whole story -/

/-- **Where the nodes of a story lie.** All of them start and stop between tokens, inside the story. Each
node below it is sound, and its lines follow each other. Of two imports that are recorded for the story
the first one ends before the second one starts, or else it is inside the second one. -/
theorem parseModule_ranges (text path : String) (indentSize : Nat) :
    let m := (parseModule text path indentSize).module
    (∀ o ∈ m.outline.nodes, IsBoundary text o.span.start ∧ IsBoundary text o.span.stop ∧
      o.span.start.offset ≤ o.span.stop.offset ∧ o.span.LiesIn m.span) ∧
    (∀ o ∈ Outline.nodesOfAll m.outline.children, o.Sound (IsBoundary text)) ∧
    (Line.outlines "line" m.lines).Pairwise Outline.Before ∧
    m.imports.Pairwise fun i j =>
      i.span.stop.offset ≤ j.span.start.offset ∨ i.span.LiesIn j.span := by
  intro m
  let start := (State.ofText text indentSize).spot
  obtain ⟨b, hreads, hrest, hspan, himports⟩ := parseModule_reads text path indentSize
  have hplaced : start.Placed := (State.placed_ofText text indentSize).spot
  have hplace (c : Spot) (hc : start.Onward c) : IsBoundary text c.position := isBoundary_of_onward hc
  have hzero : start.position = .zero := State.position_ofText text indentSize
  have hfinish : b.position = b.finish := by simp [Spot.position, Spot.current, hrest, Token.endfile]
  have hself : start.Onward start := .refl start
  have hlines := hreads.laid hplaced hplace hself (.lines "line" _)
  obtain ⟨new, hnew, hrecorded⟩ := hreads.recorded hplaced hplace hself
  have hnew : b.imports = new := hnew.trans (List.append_nil new)
  rw [hnew] at himports
  have hm : m.span = ⟨start.position, b.position⟩ := by rw [hzero, hfinish, ← hspan]
  -- Below the story are its lines and its imports, and both lie in it by its derivation.
  have hbelow : ∀ o ∈ Outline.nodesOfAll m.outline.children, o.Sound (IsBoundary text) ∧
      o.span.LiesIn m.span := by
    intro o ho
    have hchildren : m.outline.children =
        Line.outlines "line" m.lines ++ new.reverse.map (Import.outline "import") := by
      rw [← himports]
      rfl
    rw [hchildren, Outline.nodesOfAll_append, List.mem_append] at ho
    rw [hm]
    obtain ho | ho := ho
    · exact ⟨hlines.sound o ho, hlines.between o ho⟩
    · exact hrecorded.outline ho
  refine ⟨?_, fun o ho => (hbelow o ho).1, hlines.ordered, ?_⟩
  · rw [Outline.nodes_eq, List.forall_mem_cons]
    refine ⟨?_, fun o ho => ?_⟩
    · change IsBoundary text m.span.start ∧ IsBoundary text m.span.stop ∧
        m.span.start.offset ≤ m.span.stop.offset ∧ m.span.LiesIn m.span
      rw [hm]
      exact ⟨hplace start hself, hplace b hreads.onward, hplaced.offset_le hreads.onward, le_rfl, le_rfl⟩
    · obtain ⟨hsound, hlies⟩ := hbelow o ho
      exact ⟨hsound.start, hsound.stop, hsound.le, hlies⟩
  · have hordered := hrecorded.reverse_ordered
    rw [← himports] at hordered
    exact hordered

/-- An import in the path of another one. -/
example :
    let text := "* import x from 'a*() => \x7b import y from \"b\" \x7d'\n"
    (parseModule text "" 2).module.imports.map (fun i => (i.name, i.span.start.offset, i.span.stop.offset)) =
      [("y", 27, 44), ("x", 2, 47)] := by
  decide +kernel

end Story
