import Story.Proofs.Ranges

/-!
# How deep a story is

Two hundred levels of expressions and statements may be open at once, and each level adds only so many nodes
to a branch of the tree. So no branch is long, whatever the text (`parseModule_shallow`), if the nodes that
are read by iteration are left out of account: what a continuation is applied to is inside the
continuation, and what a `new` makes is inside the `new`. There may be as many of them as the text has.

* `Outline.Reaches` — a way down the tree, with the number of steps that count; `Outline.Shallow w` — no way
  down has more than `w` of them;
* `Node.Shallow.of_children` — a node is at most three steps above its children; `Node.Shallow.of_goesOn` — a
  node that goes on from its first child is no deeper than that;
* `Nested.Shallow` — the readers one level further in give shallow nodes. A production puts at most six layers
  of nodes above what is read by them (`Node.Built`), so `Grammar.productions_shallow` adds eighteen steps, and
  the levels add up (`Grammar.nested_shallow`).
-/

namespace Story

open Story.Parser Story.Grammar

/-! ### Ways down a tree -/

namespace Outline

/-- Whether the step from a node to its child does not count: the child is what a continuation is applied
to, or what a `new` makes. -/
def spares (parent child : Outline) : Bool :=
  match parent.kind with
  | .binaryExpression => child.role == "left"
  | .memberExpression | .indexerExpression => child.role == "object"
  | .callExpression | .newExpression => child.role == "callee"
  | .conditionalExpression => child.role == "condition"
  | .updateExpression => parent.attributes.contains ("prefix", flag false)
  | _ => false

/-- What the step from a node to its child counts. -/
def cost (parent child : Outline) : Nat := if parent.spares child then 0 else 1

/-- `o.Reaches k d`: the node `d` is in `o`, and `k` of the steps down to it count. -/
inductive Reaches : Outline → Nat → Outline → Prop where
  | here (o : Outline) : Reaches o 0 o
  | step {o c d : Outline} {k : Nat} (hc : c ∈ o.children) (h : Reaches c k d) :
      Reaches o (o.cost c + k) d

/-- On no way down from the node more than `w` steps count. -/
def Shallow (w : Nat) (o : Outline) : Prop := ∀ k d, o.Reaches k d → k ≤ w

variable {v w : Nat} {o : Outline} {os : List Outline} {role : String} {kind : NodeKind} {span : Span}
  {attributes : List (String × String)}

theorem Shallow.mono (h : o.Shallow v) (hle : v ≤ w) : o.Shallow w := fun k d hd => (h k d hd).trans hle

theorem shallow_of_children (h : ∀ c ∈ o.children, ∃ v, c.Shallow v ∧ o.cost c + v ≤ w) : o.Shallow w := by
  intro k d hd
  cases hd with
  | here => exact Nat.zero_le w
  | step hc hd =>
    obtain ⟨v, hv, hle⟩ := h _ hc
    exact (Nat.add_le_add_left (hv _ _ hd) _).trans hle

/-- Every step counts at most once. -/
theorem shallow_node (h : ∀ c ∈ os, c.Shallow w) : (node role kind span attributes os).Shallow (w + 1) := by
  refine shallow_of_children fun c hc => ⟨w, h c hc, ?_⟩
  have hcost : cost (node role kind span attributes os) c ≤ 1 := by
    unfold cost
    split <;> omega
  omega

/-- The step to the first child does not count. -/
theorem shallow_spine {first : Outline} (hfirst : first.Shallow w)
    (hspared : (node role kind span attributes (first :: os)).spares first = true)
    (hothers : ∀ c ∈ os, c.Shallow v) (hlt : v < w) :
    (node role kind span attributes (first :: os)).Shallow w := by
  refine shallow_of_children (List.forall_mem_cons.mpr ⟨⟨w, hfirst, ?_⟩, fun c hc => ⟨v, hothers c hc, ?_⟩⟩)
  · rw [cost, if_pos hspared, Nat.zero_add]
  · unfold cost
    split <;> omega

end Outline

/-! ### Nodes -/

namespace Node

/-- Whatever the node is to its parent, no more than `k` steps count on a way down from it, besides the `w`
steps that there may be in what is read one level further in. -/
def Shallow (w k : Nat) (n : Node) : Prop := ∀ role, ∀ o ∈ n.outlines role, o.Shallow (w + k)

variable {w k : Nat} {n c : Node} {ns : List Node}

theorem Shallow.mono {k' : Nat} (h : n.Shallow w k) (hle : k ≤ k') : n.Shallow w k' :=
  fun role o ho => (h role o ho).mono (Nat.add_le_add_left hle w)

theorem shallow_of_drawn_nodes {os : List Outline} (h : Drawn (ns.map .node) os)
    (hns : ∀ n ∈ ns, n.Shallow w k) : ∀ o ∈ os, o.Shallow (w + k) := by
  induction ns generalizing os with
  | nil =>
    cases h
    exact List.forall_mem_nil _
  | cons n ns ih =>
    obtain ⟨hn, hns⟩ := List.forall_mem_cons.mp hns
    cases h with
    | node _ role h => exact List.forall_mem_append.mpr ⟨hn role, ih h hns⟩
    | omitted _ h => exact ih h hns

/-- The outlines of components are at most two steps above their nodes. -/
theorem shallow_of_drawn {cs : List Component} {os : List Outline} (h : Drawn cs os)
    (hcs : ∀ n ∈ cs.flatMap Component.nodes, n.Shallow w k) : ∀ o ∈ os, o.Shallow (w + k + 2) := by
  induction h with
  | nil => exact List.forall_mem_nil _
  | node n role _ ih =>
    obtain ⟨hn, hcs⟩ := List.forall_mem_cons.mp hcs
    exact List.forall_mem_append.mpr ⟨fun o ho => (hn role o ho).mono (by omega), ih hcs⟩
  | omitted n _ ih => exact ih (List.forall_mem_cons.mp hcs).2
  | mark _ _ ih =>
    exact List.forall_mem_cons.mpr ⟨Outline.shallow_node (List.forall_mem_nil _), ih hcs⟩
  | inner _ hinside _ _ ih =>
    obtain ⟨hns, hcs⟩ := List.forall_mem_append.mp hcs
    exact List.forall_mem_cons.mpr
      ⟨(Outline.shallow_node (shallow_of_drawn_nodes hinside hns)).mono (by omega), ih hcs⟩
  -- A key that is to be deleted is drawn below two nodes.
  | twice _ _ hinside _ _ ih =>
    obtain ⟨hns, hcs⟩ := List.forall_mem_append.mp hcs
    exact List.forall_mem_cons.mpr ⟨Outline.shallow_node (List.forall_mem_singleton.mpr
      (Outline.shallow_node (shallow_of_drawn_nodes hinside hns))), ih hcs⟩
  | list _ hinside _ _ ih =>
    obtain ⟨hns, hcs⟩ := List.forall_mem_append.mp hcs
    exact List.forall_mem_cons.mpr
      ⟨(Outline.shallow_node (shallow_of_drawn_nodes hinside hns)).mono (by omega), ih hcs⟩

/-- **A node is at most three steps above its children.** -/
theorem Shallow.of_children (h : ∀ c ∈ n.children, c.Shallow w k) : n.Shallow w (k + 3) := by
  intro role
  have hcomponents : ∀ c ∈ n.components.flatMap Component.nodes, c.Shallow w k := by
    rw [Node.components_nodes]
    exact h
  obtain ⟨_, _, _, _, _, heq, -, -, hbelow⟩ | hbelow := n.drawn role
  · rw [heq]
    exact List.forall_mem_singleton.mpr (Outline.shallow_node (shallow_of_drawn hbelow hcomponents))
  · exact fun o ho => (shallow_of_drawn hbelow hcomponents o ho).mono (by omega)

/-! What is read by iteration is as shallow as what it goes on from. -/

section Spine

variable {e : Expression} {es : List Expression}

theorem role_outline (e : Expression) (role : String) : (e.outline role).role = role := by
  cases e with
  | new _ _ brackets => cases brackets <;> rfl
  | _ => rfl

theorem shallow_expression : (Node.expression e).Shallow w k ↔ ∀ role, (e.outline role).Shallow (w + k) :=
  forall_congr' fun _ => List.forall_mem_singleton

theorem shallow_list (h : ∀ n ∈ es.map Node.expression, n.Shallow w k) (role : String) (b : Brackets) :
    (b.outline role (Expression.outlines es)).Shallow (w + k + 1) :=
  Outline.shallow_node (shallow_of_drawn_nodes (.expressions es) h)

/-- The step from a node to what it goes on from does not count. Its other children are at most two steps
below it, since arguments are in a list. -/
theorem Shallow.of_goesOn (hgoes : n.goesOn = true) (hc : n.children = c :: ns)
    (hfirst : c.Shallow w (k + 2)) (hothers : ∀ c ∈ ns, c.Shallow w k) : n.Shallow w (k + 2) := by
  have hlt : w + k < w + (k + 2) := by omega
  have hlist : w + k + 1 < w + (k + 2) := by omega
  cases n with
  | expression e =>
    refine shallow_expression.mpr fun role => ?_
    cases e with
    | member _ e =>
      cases hc
      exact Outline.shallow_spine (shallow_expression.mp hfirst _) (beq_iff_eq.mpr (role_outline e _))
        (List.forall_mem_nil _) hlt
    | index _ e e' =>
      cases hc
      have hindex := shallow_expression.mp (List.forall_mem_singleton.mp hothers)
      exact Outline.shallow_spine (shallow_expression.mp hfirst _) (beq_iff_eq.mpr (role_outline e _))
        (List.forall_mem_singleton.mpr (hindex _)) hlt
    | call _ e b es =>
      cases hc
      exact Outline.shallow_spine (shallow_expression.mp hfirst _) (beq_iff_eq.mpr (role_outline e _))
        (List.forall_mem_singleton.mpr (shallow_list hothers _ b)) hlist
    | update _ _ isBefore e =>
      cases isBefore with
      | true => cases hgoes
      | false =>
        cases hc
        exact Outline.shallow_spine (shallow_expression.mp hfirst _)
          (List.contains_iff_mem.mpr (List.mem_cons_of_mem _ List.mem_cons_self)) (List.forall_mem_nil _) hlt
    | binary _ e _ e' =>
      cases hc
      have hright := shallow_expression.mp (List.forall_mem_singleton.mp hothers)
      exact Outline.shallow_spine (shallow_expression.mp hfirst _) (beq_iff_eq.mpr (role_outline e _))
        (List.forall_mem_singleton.mpr (hright _)) hlt
    | conditional _ e e' e'' =>
      cases hc
      obtain ⟨htrue, hfalse⟩ := List.forall_mem_cons.mp hothers
      have hfalse := shallow_expression.mp (List.forall_mem_singleton.mp hfalse)
      exact Outline.shallow_spine (shallow_expression.mp hfirst _) (beq_iff_eq.mpr (role_outline e _))
        (List.forall_mem_cons.mpr
          ⟨shallow_expression.mp htrue _, List.forall_mem_singleton.mpr (hfalse _)⟩) hlt
    | new _ e brackets es =>
      cases hc
      cases brackets with
      | none =>
        exact Outline.shallow_spine (shallow_expression.mp hfirst _) (beq_iff_eq.mpr (role_outline e _))
          (List.forall_mem_nil _) hlt
      | some b =>
        exact Outline.shallow_spine (shallow_expression.mp hfirst _) (beq_iff_eq.mpr (role_outline e _))
          (List.forall_mem_singleton.mpr (shallow_list hothers _ b)) hlist
    | _ => cases hgoes
  | _ => cases hgoes

end Spine

/-- A layer of nodes is at most three steps. -/
theorem Built.shallow {o : Reading} {d : Nat} (h : n.Built o (fun _ n => ∀ k, n.Shallow w k) d k) :
    n.Shallow w (3 * k) := by
  induction h with
  | inner h => exact h _
  | layer _ _ ih => exact .of_children ih
  | @onward d k n c cs _ hgoes hchildren _ _ hfirst hothers =>
    change n.Shallow w (3 * k + 1 + 2)
    exact .of_goesOn hgoes hchildren hfirst fun c hc => (hothers c hc).mono (Nat.le_succ _)

end Node

/-- The readers one level further in give shallow nodes. -/
abbrev Nested.Shallow (o : Reading) (w : Nat) (g : Nested) : Prop := g.Gives o fun _ n => ∀ k, n.Shallow w k

namespace Grammar

variable {o : Reading} {d w k : Nat} {g : Nested}

theorem line_shallow (hg : g.Shallow o w) :
    (line g).Gives (o.Part d) fun l => (Node.line l).Shallow w (k + 9) :=
  fun _ _ _ hs hl => (line_built (k := 0) hg hs hl).shallow.mono (Nat.le_add_left 9 k)

/-- **What one level adds.** -/
theorem productions_shallow (hg : g.Shallow o w) : (productions g).Shallow o (w + 18) :=
  productions_gives hg fun _ _ hn k role o ho => (hn.shallow role o ho).mono (Nat.le_add_right (w + 18) k)

/-! ### Levels and the whole story -/

theorem shallow_of_leaf {n : Node} (h : n.children = []) (k : Nat) : n.Shallow (w + 3) k := by
  have hn : n.Shallow w (0 + 3) := .of_children (h ▸ List.forall_mem_nil _)
  exact fun role o ho => (hn role o ho).mono (by omega)

theorem refused_shallow : refused.Shallow o (w + 3) where
  expressions _ _ _ := gives_skip fun _ => gives_pure (shallow_of_leaf rfl)
  operands _ _ := gives_skip fun _ => gives_pure (shallow_of_leaf rfl)
  statements _ _ := gives_skip fun _ => gives_pure (shallow_of_leaf rfl)

theorem levelled_shallow (hg : g.Shallow o.deeper (w + 3)) : (levelled g).Shallow o (w + 3) :=
  levelled_gives (fun _ => hg) (fun _ _ _ => shallow_of_leaf rfl) fun _ _ _ => shallow_of_leaf rfl

/-- The levels add up. -/
theorem nested_shallow (n : Nat) : (nested n).Shallow o (18 * n + 3) := by
  induction n generalizing o with
  | zero => exact levelled_shallow refused_shallow
  | succ n ih => exact levelled_shallow (productions_shallow ih)

end Grammar

/-- The state with all levels open. -/
def State.exhausted (s : State) : State := { s with depth := nestingLimit }

/-- **No branch of a story is long, and nothing is read beyond the last level.** On a way down from the story
at most twenty steps count for each of the levels. Where all levels are open, the readers of expressions,
operands and statements report it and give a placeholder; they read on after the line, or not at all. -/
theorem parseModule_shallow (text path : String) (indentSize : Nat) :
    (parseModule text path indentSize).module.outline.Shallow (20 * (nestingLimit + 1)) ∧
    ∀ (n : Nat) (multiline binary : Bool) (s : State),
      let told := s.exhausted.report .nestingTooDeep []
      (nested n).expression multiline binary s.exhausted = (some (.missing s.here), told.skipLine) ∧
      (nested n).operand multiline s.exhausted = (some (.missing s.here), told) ∧
      (nested n).statement multiline s.exhausted = (some (.missing s.here), told.skipLine) := by
  refine ⟨?_, fun n multiline binary s => ?_⟩
  · have hlines := (State.ofText text indentSize).forall_mem_lines path
      (line_shallow (k := 0) (nested_shallow nestingLimit))
    refine (Outline.shallow_node (w := 18 * nestingLimit + 3 + 9) ?_).mono (by decide)
    refine List.forall_mem_append.mpr ⟨?_, List.forall_mem_map.mpr fun _ _ => ?_⟩
    · exact Node.shallow_of_drawn_nodes (.lines "line" _) (List.forall_mem_map.mpr hlines)
    · exact (Outline.shallow_node (List.forall_mem_nil _)).mono (Nat.le_add_left 1 _)
  · cases n with
    | zero => exact ⟨rfl, rfl, rfl⟩
    | succ n => exact ⟨rfl, rfl, rfl⟩

end Story
