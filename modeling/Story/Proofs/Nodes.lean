import Story.Syntax.Tree

/-!
# The nodes of a syntax tree

Statements about everything in a story go through all types of its tree. A `Node` is a value of any
of these types, and `Node.children` are the nodes right below it, in the order of the text.

* `Node.Within d n m` — `m` occurs in `n`, with `d` blocks of lines between the two;
* `Node.Every P d n` — `P` holds of every node in `n`, which itself stands in `d` blocks of lines.
  `Node.every_iff` is the way to prove it: of the node, then of each child;
* `Node.nodes` — all nodes in a node as a list, parents before children; `Node.walk` — those that are
  reached if only some children are entered;
* `Node.sizeOf_lt_of_mem` — a child is smaller than its parent, which is what recursion over nodes
  rests on.
-/

namespace Story

/-- A node of any type. -/
inductive Node where
  | expression (e : Expression)
  | part (p : TextPart)
  | property (p : Property)
  | parameter (p : Parameter)
  | block (b : Block)
  | statement (s : Statement)
  | declarator (d : Declarator)
  | head (h : LoopHead)
  | clause (c : Clause)
  | key (k : ObjectKey)
  | tag (t : Tag)
  | prototype (p : Prototype)
  | line (l : Line)

/-! ### Children -/

/-- The nodes right below an expression. -/
def Expression.children : Expression → List Node
  | .number .. | .boolean .. | .keyword .. | .name .. | .missing .. => []
  | .string _ _ parts => parts.map .part
  | .array _ _ elements => elements.map .expression
  | .object _ _ properties => properties.map .property
  | .binary _ left _ right => [.expression left, .expression right]
  | .member _ inner _ _ | .update _ _ _ inner | .unary _ _ inner | .operation _ _ inner
  | .paren _ inner | .spread _ inner => [.expression inner]
  | .index _ base inner _ => [.expression base, .expression inner]
  | .call _ callee _ arguments _ | .new _ callee _ arguments =>
    .expression callee :: arguments.map .expression
  | .conditional _ condition whenTrue whenFalse =>
    [.expression condition, .expression whenTrue, .expression whenFalse]
  | .yield _ _ value => value.toList.map .expression
  | .function _ _ _ _ _ parameters body | .arrowBlock _ _ _ parameters body =>
    parameters.map .parameter ++ [.block body]
  | .arrowValue _ _ _ parameters body => parameters.map .parameter ++ [.expression body]

/-- The nodes right below a member of an object literal. -/
def Property.children : Property → List Node
  | .named _ _ value | .numbered _ _ value | .spread _ value => [.expression value]
  | .quoted _ _ _ parts value => parts.map .part ++ [.expression value]
  | .computed _ key value => [.expression key, .expression value]

/-- The nodes right below a statement. -/
def Statement.children : Statement → List Node
  | .block body => [.block body]
  | .expression value | .throw _ value => [.expression value]
  | .variable _ _ declarators => declarators.map .declarator
  | .function _ _ _ _ _ parameters body => parameters.map .parameter ++ [.block body]
  | .ifElse _ condition whenTrue whenFalse =>
    .expression condition :: .statement whenTrue :: whenFalse.toList.map .statement
  | .switch _ value body => [.expression value, .block body]
  | .label _ value | .result _ value => value.toList.map .expression
  | .whileLoop _ condition body => [.expression condition, .statement body]
  | .doLoop _ body condition => [.statement body, .expression condition]
  | .forLoop _ head condition update body =>
    .head head :: (condition.toList.map .expression ++ update.toList.map .expression ++
      [.statement body])
  | .forIn _ head value body | .forOf _ _ head value body =>
    [.head head, .expression value, .statement body]
  | .attempt _ body clauses => .block body :: clauses.map .clause
  | .imported _ | .leave .. | .next .. | .debugger _ | .empty _ | .missing _ => []

namespace Node

/-- The nodes right below a node, in the order of the text. -/
def children : Node → List Node
  | .expression e => e.children
  | .part (.chunk ..) | .head .nothing | .key (.word ..) | .prototype .nothing
  | .line (.comment ..) => []
  | .part (.splice _ value) | .head (.expression value) | .prototype (.inherits _ value) =>
    [.expression value]
  | .property p => p.children
  | .parameter (.named _ _ _ value) | .declarator (.bind _ _ value) | .tag (.tag _ _ value) =>
    value.toList.map .expression
  | .block (.code _ _ statements _) => statements.map .statement
  | .block (.template _ _ lines) => lines.map .line
  | .statement s => s.children
  | .head (.variable _ _ declarators) => declarators.map .declarator
  | .clause (.handler _ _ body) | .clause (.finalizer _ body) => [.block body]
  | .key (.quoted _ parts) | .line (.text _ _ parts) => parts.map .part
  | .line (.object _ _ _ name proto tags value) =>
    .key name :: .prototype proto :: (tags.map .tag ++ value.toList.map .expression)
  | .line (.delete _ _ _ name) => [.key name]
  | .line (.code _ _ body) => [.statement body]

/-- How many blocks of lines a node opens for its children. -/
def opens : Node → Nat
  | .block (.template ..) => 1
  | _ => 0

/-- A child is smaller than its parent. -/
theorem sizeOf_lt_of_mem {n c : Node} (h : c ∈ n.children) : sizeOf c < sizeOf n := by
  -- The three large kinds of nodes have their children defined apart.
  cases n with
  | expression e => cases e <;> grind [children, Expression.children, → List.sizeOf_lt_of_mem]
  | property p => cases p <;> grind [children, Property.children, → List.sizeOf_lt_of_mem]
  | statement s => cases s <;> grind [children, Statement.children, → List.sizeOf_lt_of_mem]
  | part x | parameter x | block x | declarator x | head x | clause x | key x | tag x | prototype x
  | line x => cases x <;> grind [children, → List.sizeOf_lt_of_mem]

/-- **Induction on the tree:** what a node has if all its children have it, every node has. -/
@[elab_as_elim]
theorem induction_children {motive : Node → Prop}
    (step : ∀ n : Node, (∀ c ∈ n.children, motive c) → motive n) (n : Node) : motive n :=
  step n fun c _ => induction_children step c
termination_by sizeOf n
decreasing_by exact sizeOf_lt_of_mem ‹_›

/-! ### All nodes of a tree -/

/-- `Within d n m`: the node `m` occurs in `n`, and `d` blocks of lines are open between them. -/
inductive Within : Nat → Node → Node → Prop where
  | self (n : Node) : Within 0 n n
  | child {d : Nat} {n c m : Node} (hc : c ∈ n.children) (h : Within d c m) :
      Within (n.opens + d) n m

/-- `P` holds of all nodes in `n`, each with the number of blocks of lines that it stands in, where
`n` itself stands in `d` of them. -/
def Every (P : Nat → Node → Prop) (d : Nat) (n : Node) : Prop :=
  ∀ e m, Within e n m → P (d + e) m

/-- What holds of everything in a node is what holds of the node and of everything in its children.
-/
theorem every_iff {P : Nat → Node → Prop} {d : Nat} {n : Node} :
    Every P d n ↔ P d n ∧ ∀ c ∈ n.children, Every P (d + n.opens) c := by
  constructor
  · intro h
    refine ⟨h 0 n (.self n), fun c hc e m hm => ?_⟩
    rw [Nat.add_assoc]
    exact h _ m (.child hc hm)
  · rintro ⟨hn, hc⟩ e m hm
    cases hm with
    | self => exact hn
    | child hmem h =>
      rw [← Nat.add_assoc]
      exact hc _ hmem _ m h

/-! ### The nodes of a tree as a list -/

/-- The nodes that a walk through a node comes to, parents before children and in the order of the text.
The walk goes from a node to those of its children that `enters` lets it enter. -/
def walk (enters : Node → Node → Bool) (n : Node) : List Node :=
  n :: n.children.attach.flatMap fun c => if enters n c.1 then walk enters c.1 else []
termination_by sizeOf n
decreasing_by exact sizeOf_lt_of_mem c.2

/-- All nodes in a node. -/
def nodes (n : Node) : List Node := n.walk fun _ _ => true

variable {enters : Node → Node → Bool} {n m c : Node}

theorem walk_eq :
    n.walk enters = n :: n.children.flatMap fun c => if enters n c then c.walk enters else [] := by
  rw [walk]
  simp only [List.flatMap_subtype, List.unattach_attach]

theorem nodes_eq : n.nodes = n :: n.children.flatMap nodes := by
  rw [nodes, walk_eq]
  rfl

/-- The nodes of the list are those that occur in the node. -/
theorem mem_nodes : m ∈ n.nodes ↔ ∃ d, Within d n m := by
  induction n using induction_children with
  | step n ih =>
    rw [nodes_eq, List.mem_cons, List.mem_flatMap]
    constructor
    · rintro (rfl | ⟨c, hc, hm⟩)
      · exact ⟨0, .self _⟩
      · obtain ⟨d, hd⟩ := (ih c hc).mp hm
        exact ⟨_, .child hc hd⟩
    · rintro ⟨d, hd⟩
      cases hd with
      | self => exact .inl rfl
      | child hc hd => exact .inr ⟨_, hc, (ih _ hc).mpr ⟨_, hd⟩⟩

theorem self_mem_nodes : n ∈ n.nodes := mem_nodes.mpr ⟨0, .self n⟩

theorem mem_nodes_of_child (hc : c ∈ n.children) (hm : m ∈ c.nodes) : m ∈ n.nodes :=
  let ⟨_, h⟩ := mem_nodes.mp hm
  mem_nodes.mpr ⟨_, .child hc h⟩

theorem mem_nodes_trans (hc : c ∈ n.nodes) (hm : m ∈ c.nodes) : m ∈ n.nodes := by
  obtain ⟨d, h⟩ := mem_nodes.mp hc
  induction h with
  | self => exact hm
  | child hchild h ih => exact mem_nodes_of_child hchild (ih (mem_nodes.mpr ⟨_, h⟩) hm)

end Node

end Story
