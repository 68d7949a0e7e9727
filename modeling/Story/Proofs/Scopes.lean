import Story.Proofs.Nodes

/-!
# Scopes of a syntax tree

Which names of a script are known at a place of a story can be told from its tree alone. A walk through
the tree in the order of the text carries the names along; each kind of node says what it does to them.

* `Scoping` — what a node does to the names: those it makes known to what is inside it, whether what is
  made known inside stays inside, and those it makes known to what comes after it;
* `Node.scoping` — the scoping of every node. Functions, blocks of code and of lines, `for` loops and
  `catch` clauses are scopes; parameters, names with `@`, caught names and imports make names known;
* `Node.visit` — the walk: all nodes, each with the names known there, and the names known after it.
-/

namespace Story

/-- What a node does to the names that are known. -/
structure Scoping where
  /-- The names that become known to what is inside. -/
  inside : List String
  /-- Whether names that become known inside are forgotten after the node. -/
  isScope : Bool
  /-- The names that become known to what comes after. -/
  after : List String

namespace Scoping

/-- Nothing becomes known, and nothing is forgotten. -/
def plain : Scoping := ⟨[], false, []⟩

/-- What becomes known inside is forgotten. -/
def scope : Scoping := ⟨[], true, []⟩

/-- The names known at the start of what is inside, if `known` are known before the node. -/
def enter (c : Scoping) (known : List String) : List String := c.inside ++ known

/-- The names known after the node, if `known` are known before it and `inner` at the end of what is
inside. -/
def leave (c : Scoping) (known inner : List String) : List String :=
  c.after ++ if c.isScope then known else inner

/-- Whether the node has nothing to do with the names. -/
def isPlain (c : Scoping) : Bool := c.inside.isEmpty && !c.isScope && c.after.isEmpty

theorem eq_plain_of_isPlain {c : Scoping} (h : c.isPlain = true) : c = plain := by
  obtain ⟨inside, isScope, after⟩ := c
  simp only [isPlain, Bool.and_eq_true, List.isEmpty_iff, Bool.not_eq_true'] at h
  obtain ⟨⟨rfl, rfl⟩, rfl⟩ := h
  rfl

end Scoping

/-- The variables of the script that a declared name stands for: the name itself, if it has `@`. -/
def Binding.variableNames (b : Binding) : List String := if b.isRaw then [b.name] else []

/-- The variables of the script that an import stands for. -/
def Import.variableNames (i : Import) : List String := if i.isIn then [] else [i.binding]

namespace Node

/-- **What each node does to the names that are known.** -/
def scoping : Node → Scoping
  | .expression (.function _ name _ _ _ _ _) => ⟨name.toList, true, []⟩
  | .expression (.arrowBlock ..) | .expression (.arrowValue ..) => .scope
  | .parameter (.named _ name _ _) => ⟨[], false, [name]⟩
  | .block (.code _ _ _ isScoped) => ⟨[], isScoped, []⟩
  | .block (.template ..) => .scope
  | .statement (.function _ name _ _ _ _ _) => ⟨name.variableNames, true, name.variableNames⟩
  | .statement (.forLoop ..) | .statement (.forIn ..) | .statement (.forOf ..) => .scope
  | .statement (.imported i) => ⟨[], false, i.variableNames⟩
  | .declarator (.bind _ name _) => ⟨name.variableNames, false, []⟩
  | .clause (.handler _ name _) => ⟨name.toList, true, []⟩
  | _ => .plain

/-! ### The walk -/

/-- What a walk comes to: the nodes, each with the names known there, and the names known after it. -/
structure Visit where
  /-- The nodes in the order of the text, parents before children, with the names known before each. -/
  visited : List (Node × List String)
  /-- The names known after them. -/
  known : List String

/-- Go on with a walk. -/
def Visit.append (v w : Visit) : Visit := ⟨v.visited ++ w.visited, w.known⟩

/-- The walk through a node, if `known` are known before it. -/
def visit (known : List String) (n : Node) : Visit :=
  let inside := n.children.attach.foldl (fun (v : Visit) c => v.append (visit v.known c.1))
    ⟨[], n.scoping.enter known⟩
  ⟨(n, known) :: inside.visited, n.scoping.leave known inside.known⟩
termination_by sizeOf n
decreasing_by exact sizeOf_lt_of_mem c.2

/-- The walk through several nodes. -/
def visitAll (known : List String) : List Node → Visit
  | [] => ⟨[], known⟩
  | n :: ns => (n.visit known).append (visitAll (n.visit known).known ns)

theorem Visit.append_assoc (u v w : Visit) : (u.append v).append w = u.append (v.append w) := by
  simp only [Visit.append, List.append_assoc]

theorem foldl_visit (v : Visit) (ns : List Node) :
    ns.foldl (fun v c => v.append (c.visit v.known)) v = v.append (visitAll v.known ns) := by
  induction ns generalizing v with
  | nil => simp [visitAll, Visit.append]
  | cons n ns ih =>
    rw [List.foldl_cons, ih, Visit.append_assoc]
    rfl

/-- **The walk through a node:** the node itself, then all that is inside, with its scoping around it. -/
theorem visit_eq (known : List String) (n : Node) :
    n.visit known =
      ⟨(n, known) :: (visitAll (n.scoping.enter known) n.children).visited,
        n.scoping.leave known (visitAll (n.scoping.enter known) n.children).known⟩ := by
  rw [visit]
  simp only [List.foldl_subtype, List.unattach_attach, foldl_visit]
  rfl

@[simp] theorem visitAll_nil (known : List String) : visitAll known [] = ⟨[], known⟩ := rfl

theorem visitAll_append (known : List String) (ns ms : List Node) :
    visitAll known (ns ++ ms) =
      (visitAll known ns).append (visitAll (visitAll known ns).known ms) := by
  induction ns generalizing known with
  | nil => simp [Visit.append]
  | cons n ns ih =>
    rw [List.cons_append, visitAll, ih, ← Visit.append_assoc]
    rfl

@[simp] theorem visitAll_singleton (known : List String) (n : Node) :
    visitAll known [n] = n.visit known := by
  simp [visitAll, Visit.append]

/-- The walk comes to every node once, parents before children and in the order of the text. -/
theorem visit_nodes (known : List String) (n : Node) :
    (n.visit known).visited.map Prod.fst = n.nodes := by
  -- Below the node the names differ from child to child, so the children are generalized over them.
  induction n using induction_children generalizing known with
  | step n ih =>
    have hall (ns : List Node) (hns : ∀ c ∈ ns, c ∈ n.children) (known : List String) :
        (visitAll known ns).visited.map Prod.fst = ns.flatMap nodes := by
      induction ns generalizing known with
      | nil => rfl
      | cons c ns ihs =>
        obtain ⟨hc, hns⟩ := List.forall_mem_cons.mp hns
        rw [visitAll, Visit.append, List.map_append, ih c hc known, ihs hns, List.flatMap_cons]
    rw [visit_eq, nodes_eq, List.map_cons, hall _ fun _ h => h]

theorem visitAll_nodes (known : List String) (ns : List Node) :
    (visitAll known ns).visited.map Prod.fst = ns.flatMap nodes := by
  induction ns generalizing known with
  | nil => rfl
  | cons n ns ih => rw [visitAll, Visit.append, List.map_append, visit_nodes, ih, List.flatMap_cons]

/-! ### Values make nothing known -/

/-- Whether the node is a value or a part of one. -/
def isValue : Node → Bool
  | .expression _ | .part _ | .property _ => true
  | _ => false

/-- Inside a value there are values only, or else the value is a function, and that is a scope. -/
theorem isValue_children {n c : Node} (hn : n.isValue = true) (hc : c ∈ n.children) :
    c.isValue = true ∨ n.scoping.isScope = true := by
  cases n with
  | expression e =>
    cases e with
    | function | arrowBlock | arrowValue => exact .inr rfl
    | number | boolean | keyword | name | missing => cases hc
    -- All other values have values as their children.
    | _ =>
      left
      simp only [children, Expression.children, List.mem_cons, List.mem_map, List.not_mem_nil,
        Option.mem_toList, or_false] at hc
      grind [isValue]
  | part p =>
    cases p with
    | chunk => cases hc
    | splice => exact .inl (List.mem_singleton.mp hc ▸ rfl)
  | property p =>
    left
    cases p <;> simp only [children, Property.children, List.mem_cons, List.mem_append, List.mem_map,
      List.not_mem_nil, or_false] at hc <;> grind [isValue]
  | _ => cases hn

theorem scoping_after_of_isValue {n : Node} (hn : n.isValue = true) :
    n.scoping.after = [] ∧ (n.scoping.isScope = true ∨ n.scoping.inside = []) := by
  cases n with
  | expression e => cases e <;> simp [scoping, Scoping.plain, Scoping.scope]
  | part | property => simp [scoping, Scoping.plain]
  | _ => cases hn

/-- **A value makes no name known to what comes after it.** -/
theorem known_visit_of_isValue (known : List String) {n : Node} (hn : n.isValue = true) :
    (n.visit known).known = known := by
  induction n using induction_children generalizing known with
  | step n ih =>
    obtain ⟨hafter, hinside⟩ := scoping_after_of_isValue hn
    have hleave (inner : List String) : n.scoping.leave known inner =
        if n.scoping.isScope then known else inner := by rw [Scoping.leave, hafter, List.nil_append]
    rw [visit_eq]
    by_cases hscope : n.scoping.isScope = true
    · simp only [hleave, hscope, ↓reduceIte]
    · -- No scope, so all children are values, and none of them makes a name known.
      have hall (ns : List Node) (hns : ∀ c ∈ ns, c ∈ n.children) :
          (visitAll known ns).known = known := by
        induction ns with
        | nil => rfl
        | cons c ns ihs =>
          obtain ⟨hc, hns⟩ := List.forall_mem_cons.mp hns
          have hvalue : c.isValue = true := (isValue_children hn hc).resolve_right hscope
          rw [visitAll, ih c hc known hvalue]
          exact ihs hns
      have henter : n.scoping.enter known = known := by
        rw [Scoping.enter, hinside.resolve_left hscope, List.nil_append]
      simp only [hleave, hscope, henter, Bool.false_eq_true, ↓reduceIte]
      exact hall _ fun _ h => h

theorem known_visitAll_of_isValue (known : List String) {ns : List Node}
    (h : ∀ n ∈ ns, n.isValue = true) : (visitAll known ns).known = known := by
  induction ns with
  | nil => rfl
  | cons n ns ih =>
    obtain ⟨hn, hns⟩ := List.forall_mem_cons.mp h
    rw [visitAll, known_visit_of_isValue known hn]
    exact ih hns

end Node

end Story
