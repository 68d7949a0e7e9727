import Story.Proofs.Statements

/-!
# Names are told apart by the scopes of the tree

While a story is read, one list of known names is kept: names are put on it when they are declared, and
taken off where a scope ends. Much is read that is then given up, with all the names in it. Still the
names in the finished tree are told apart as if the tree had been read off the text in one go:
`parseModule_resolves` compares each name with the walk through the tree of `Node.visit`, which knows
nothing of parsing.

Both follow from the derivation of the tree. Going through a derivation, the names known to the parser are
those known to the walk (`Reads.known`), and so each node is read where the walk says (`Reads.visited`).
-/

namespace Story

open Node

/-! ### The walk through what has been read -/

namespace Spot

variable {a b : Spot}

/-- The walk through components that are read from here. -/
def visit (a : Spot) (cs : List Component) : Visit := visitAll a.locals (cs.flatMap Component.nodes)

theorem visit_append (cs ds : List Component) :
    a.visit (cs ++ ds) = (a.visit cs).append (visitAll (a.visit cs).known (ds.flatMap Component.nodes)) := by
  rw [visit, List.flatMap_append, visitAll_append]
  rfl

/-- Only the nodes of the components count. -/
theorem visit_singleton (c : Component) : a.visit [c] = a.visit (c.nodes.map .node) := by
  rw [visit, visit, flatMap_nodes_map, List.flatMap_cons, List.flatMap_nil, List.append_nil]

/-- Only the names that are known count. -/
theorem visit_congr (h : b.locals = a.locals) (cs : List Component) : b.visit cs = a.visit cs := by
  rw [visit, visit, h]

theorem visit_node (a : Spot) (n : Node) :
    a.visit [.node n] =
      ⟨(n, a.locals) :: ((a.entering n).visit n.components).visited,
        n.scoping.leave a.locals ((a.entering n).visit n.components).known⟩ := by
  have hnodes : [Component.node n].flatMap Component.nodes = [n] := rfl
  rw [visit, visit, hnodes, components_nodes, visitAll_singleton, visit_eq]
  rfl

end Spot

namespace Reads

variable {a b : Spot} {cs : List Component}

/-- **What the parser knows is what the walk knows.** -/
theorem known (h : Reads a cs b) : b.locals = (a.visit cs).known := by
  induction h with
  | gap h | mark h => exact h.locals
  | append _ _ ih ih' =>
    rw [ih', Spot.visit_append, ← ih]
    rfl
  | inner _ ih => rwa [Spot.visit_singleton]
  | list hopen _ hclose ih =>
    rw [Spot.visit_singleton, ← Spot.visit_congr hopen.locals, hclose.passes.locals]
    exact ih
  | lone _ ih => exact ih
  | node _ _ _ _ ih =>
    rw [Spot.visit_node, ← ih]
    rfl
  | @path a _ c n ns hpath _ _ hword _ hvalues _ ih =>
    -- The values in the path make nothing known, and the walk does not come to them.
    rw [Spot.visit, flatMap_nodes_map, known_visitAll_of_isValue _ hvalues, hword.locals] at ih
    rw [Spot.visit_node, components_of_hasPath hpath, Spot.leaving, ih]
    exact congrArg (n.scoping.leave a.locals) (enter_of_hasPath hpath a.locals).symm

/-- A place on the way from `a` where a node is read that the walk comes to, with what is known there. -/
structure VisitedAt (a : Spot) (v : Node × List String) (c : Spot) : Prop where
  onward : a.Onward c
  known : v.2 = c.locals
  start : ∀ span ∈ v.1.span?, span.start = c.position
  named : v.1.NamedAt c

/-- **Each node is read where the walk comes to it,** with the same names known. -/
theorem visited (h : Reads a cs b) {v : Node × List String} (hv : v ∈ (a.visit cs).visited) :
    ∃ c, VisitedAt a v c := by
  induction h with
  | gap | mark => cases hv
  | append h _ ih ih' =>
    rw [Spot.visit_append, ← h.known] at hv
    -- What the first part makes known is known where the second is read.
    obtain hv | hv := List.mem_append.mp hv
    · exact ih hv
    · obtain ⟨c, hc⟩ := ih' hv
      exact ⟨c, { hc with onward := h.onward.trans hc.onward }⟩
  | inner _ ih =>
    rw [Spot.visit_singleton] at hv
    exact ih hv
  | list hopen _ _ ih =>
    rw [Spot.visit_singleton, ← Spot.visit_congr hopen.locals] at hv
    obtain ⟨c, hc⟩ := ih hv
    exact ⟨c, { hc with onward := hopen.toOnward.trans hc.onward }⟩
  | lone _ ih => exact ih hv
  | @node a c n hspan _ hname _ ih =>
    rw [Spot.visit_node] at hv
    obtain rfl | hv := List.mem_cons.mp hv
    · -- The node itself is read where it starts; all else is read inside of it.
      exact ⟨a, .refl a, rfl, fun span hmem => congrArg Span.start (hspan span hmem), hname⟩
    · obtain ⟨c, hc⟩ := ih hv
      exact ⟨c, { hc with onward := ⟨hc.onward.rest, hc.onward.finish⟩ }⟩
  | @path a _ _ n ns hpath _ hspan _ _ _ _ _ =>
    -- The walk does not go into the path of an import.
    rw [Spot.visit_node, components_of_hasPath hpath] at hv
    obtain rfl := List.mem_singleton.mp hv
    exact ⟨a, .refl a, rfl, fun span hmem => congrArg Span.start (hspan span hmem),
      namedAt_of_hasPath hpath a⟩

end Reads

/-! ### A whole story -/

/-- **Names are told apart by the scopes of the tree.** The walk through the lines of a story starts with
no names known and comes to every node of the tree. A name that it comes to is used as it stands if there
is an `@` before it. Otherwise it is a variable of the script if it is known where the walk comes to it, or
if it is a global, and a property of the context if not. -/
theorem parseModule_resolves (text path : String) (indentSize : Nat) :
    let lines := (parseModule text path indentSize).module.lines.map Node.line
    let walk := visitAll [] lines
    walk.visited.map Prod.fst = lines.flatMap Node.nodes ∧
      ∀ span kind name known, (.expression (.name span kind name), known) ∈ walk.visited →
        ∃ t ∈ splitComments (scan text), t.start = span.start ∧
          ((t.kind = .atSign ∧ kind = .raw) ∨
            (t.kind = .word ∧ t.text = name ∧
              kind = if name ∈ known ∨ isGlobalName name then .plain else .context)) := by
  intro lines walk
  obtain ⟨b, hreads, -⟩ := parseModule_reads text path indentSize
  have hwalk : (State.ofText text indentSize).spot.visit (lines.map .node) = walk := by
    rw [Spot.visit, flatMap_nodes_map]
    rfl
  refine ⟨visitAll_nodes [] lines, fun span kind name known hmem => ?_⟩
  rw [← hwalk] at hmem
  obtain ⟨c, honward, rfl, hstart, hnamed⟩ := hreads.visited hmem
  have hcurrent : c.current ∈ splitComments (scan text) := by
    rw [(State.ofText_spec text indentSize).1]
    exact honward.current_mem
  refine ⟨c.current, hcurrent, (hstart span rfl).symm, ?_⟩
  obtain h | ⟨hword, htext, hkind⟩ := hnamed
  · exact .inl h
  · refine .inr ⟨hword, htext, ?_⟩
    simpa using hkind

end Story
