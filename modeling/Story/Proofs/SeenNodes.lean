import Story.Proofs.Lens
import Story.Proofs.Placeholders

/-!
# Nodes seen through a lens

The search for placeholders goes from node to node and asks of each only what kind of node it is. Through a lens
a node looks like a node of the same kind, and its children look like its children. So the search comes to the
same nodes of a story that is seen through a lens, and finds the same placeholders at the places that are seen.

* `Node.children_through` — the children of what is seen of a node;
* `Node.walk_through` — a walk through what is seen of a node;
* `Module.incomplete_through` — the reports about what is missing.
-/

namespace Story

variable (l : Lens)

/-- What is seen of a node. -/
def Node.through : Node → Node
  | .expression e => .expression (e.through l)
  | .part p => .part (p.through l)
  | .property p => .property (p.through l)
  | .parameter p => .parameter (p.through l)
  | .block b => .block (b.through l)
  | .statement s => .statement (s.through l)
  | .declarator d => .declarator (d.through l)
  | .head h => .head (h.through l)
  | .clause c => .clause (c.through l)
  | .key k => .key (k.through l)
  | .tag t => .tag (t.through l)
  | .prototype p => .prototype (p.through l)
  | .line x => .line (x.through l)

/-! ### Children -/

section Lists

variable {α : Type} (node : α → Node) {seen : α → α}

/-- The items of a list are seen one by one. -/
theorem items_through (h : ∀ x, (node x).through l = node (seen x)) (xs : List α) :
    (xs.map seen).map node = (xs.map node).map (Node.through l) := by
  rw [List.map_map, List.map_map]
  exact List.map_congr_left fun x _ => (h x).symm

theorem option_through (h : ∀ x, (node x).through l = node (seen x)) (x : Option α) :
    (x.map seen).toList.map node = (x.toList.map node).map (Node.through l) := by
  cases x with
  | none => rfl
  | some x => exact congrArg (List.cons · []) (h x).symm

end Lists

theorem expressions_through (es : List Expression) :
    (Expression.allThrough l es).map .expression = (es.map .expression).map (Node.through l) := by
  rw [Expression.allThrough_eq_map]
  exact items_through l .expression (fun _ => rfl) es

theorem expressionOption_through (e : Option Expression) :
    (Expression.throughOption l e).toList.map .expression = (e.toList.map .expression).map (Node.through l) := by
  rw [Expression.throughOption_eq_map]
  exact option_through l .expression (fun _ => rfl) e

theorem parts_through (ps : List TextPart) :
    (TextPart.allThrough l ps).map .part = (ps.map .part).map (Node.through l) := by
  rw [TextPart.allThrough_eq_map]
  exact items_through l .part (fun _ => rfl) ps

theorem parameters_through (ps : List Parameter) :
    (Parameter.allThrough l ps).map .parameter = (ps.map .parameter).map (Node.through l) := by
  rw [Parameter.allThrough_eq_map]
  exact items_through l .parameter (fun _ => rfl) ps

theorem declarators_through (ds : List Declarator) :
    (Declarator.allThrough l ds).map .declarator = (ds.map .declarator).map (Node.through l) := by
  rw [Declarator.allThrough_eq_map]
  exact items_through l .declarator (fun _ => rfl) ds

theorem Expression.children_through (e : Expression) :
    (e.through l).children = e.children.map (Node.through l) := by
  cases e with
  | string _ _ parts => exact parts_through l parts
  | array _ _ elements => exact expressions_through l elements
  | object _ _ properties =>
    change (Property.allThrough l properties).map Node.property = _
    rw [Property.allThrough_eq_map]
    exact items_through l .property (fun _ => rfl) properties
  | call _ _ _ arguments | new _ _ _ arguments => exact congrArg (List.cons _) (expressions_through l arguments)
  | yield _ _ value => exact expressionOption_through l value
  | function _ _ _ _ _ parameters body | arrowBlock _ _ _ parameters body | arrowValue _ _ _ parameters body =>
    change (Parameter.allThrough l parameters).map Node.parameter ++ [_] =
      (parameters.map Node.parameter ++ [_]).map _
    rw [List.map_append, parameters_through]
    rfl
  | _ => rfl

theorem Property.children_through (p : Property) : (p.through l).children = p.children.map (Node.through l) := by
  cases p with
  | quoted _ _ _ parts value =>
    change (TextPart.allThrough l parts).map Node.part ++ [_] = (parts.map Node.part ++ [_]).map _
    rw [List.map_append, parts_through]
    rfl
  | _ => rfl

theorem Statement.children_through (s : Statement) :
    (s.through l).children = s.children.map (Node.through l) := by
  cases s with
  | «variable» _ _ declarators => exact declarators_through l declarators
  | function _ _ _ _ _ parameters body =>
    change (Parameter.allThrough l parameters).map Node.parameter ++ [_] =
      (parameters.map Node.parameter ++ [_]).map _
    rw [List.map_append, parameters_through]
    rfl
  -- Optional parts are lists of at most one node.
  | ifElse _ condition whenTrue whenFalse => cases whenFalse <;> rfl
  | label _ value | result _ value => exact expressionOption_through l value
  | forLoop _ head condition update body => cases condition <;> cases update <;> rfl
  | attempt _ body clauses =>
    change _ :: (Clause.allThrough l clauses).map Node.clause = _
    rw [Clause.allThrough_eq_map]
    exact congrArg (List.cons _) (items_through l .clause (fun _ => rfl) clauses)
  | _ => rfl

namespace Node

/-- **The children of what is seen of a node** are what is seen of its children. -/
theorem children_through (n : Node) : (n.through l).children = n.children.map (Node.through l) := by
  cases n with
  | expression e => exact e.children_through l
  | property p => exact p.children_through l
  | statement s => exact s.children_through l
  | part p => cases p <;> rfl
  | parameter p => cases p with | named _ _ _ value => exact expressionOption_through l value
  | declarator d => cases d with | bind _ _ value => exact expressionOption_through l value
  | tag t => cases t with | tag _ _ value => exact expressionOption_through l value
  | block b =>
    cases b with
    | code _ _ statements =>
      change (Statement.allThrough l statements).map Node.statement = _
      rw [Statement.allThrough_eq_map]
      exact items_through l .statement (fun _ => rfl) statements
    | template _ _ lines =>
      change (Line.allThrough l lines).map Node.line = _
      rw [Line.allThrough_eq_map]
      exact items_through l .line (fun _ => rfl) lines
  | head h =>
    cases h with
    | «variable» _ _ declarators => exact declarators_through l declarators
    | _ => rfl
  | clause c => cases c <;> rfl
  | key k =>
    cases k with
    | word => rfl
    | quoted _ parts => exact parts_through l parts
  | prototype p => cases p <;> rfl
  | line x =>
    cases x with
    | object _ _ _ key proto tags value =>
      change _ :: _ :: ((Tag.allThrough l tags).map Node.tag ++
        (Expression.throughOption l value).toList.map .expression) = _
      rw [Tag.allThrough_eq_map, items_through l .tag (fun _ => rfl) tags, expressionOption_through l value,
        ← List.map_append]
      rfl
    | text _ _ parts => exact parts_through l parts
    | _ => rfl

theorem searches_through (n c : Node) : (n.through l).searches (c.through l) = n.searches c := by
  cases n with
  | property p => cases p <;> cases c <;> rfl
  | _ => rfl

theorem report?_through (n : Node) : (n.through l).report? = n.report?.map (Diagnostic.through l) := by
  cases n with
  | expression e => cases e <;> rfl
  | statement s => cases s <;> rfl
  | _ => rfl

/-- **The search in what is seen of a node** comes to what is seen of the nodes. -/
theorem walk_through (n : Node) : (n.through l).walk searches = (n.walk searches).map (Node.through l) := by
  induction n using induction_children with
  | step n ih =>
    rw [walk_eq, walk_eq, List.map_cons, children_through, List.flatMap_map, List.map_flatMap]
    congr 1
    refine List.flatMap_congr fun c hc => ?_
    rw [searches_through]
    split
    · exact ih c hc
    · rfl

end Node

/-- The reports about a story that is seen through a lens are at the places that are seen. -/
theorem Module.incomplete_through (m : Module) :
    (m.through l).incomplete = m.incomplete.map (Diagnostic.through l) := by
  have hlines : (m.through l).searched = m.searched.map (Node.through l) := by
    rw [searched, searched, List.map_flatMap]
    change (Line.allThrough l m.lines).flatMap _ = _
    rw [Line.allThrough_eq_map, List.flatMap_map]
    exact List.flatMap_congr fun x _ => (Node.line x).walk_through l
  rw [incomplete_eq, incomplete_eq, hlines, List.filterMap_map, List.map_filterMap]
  exact List.filterMap_congr fun n _ => n.report?_through l

end Story
