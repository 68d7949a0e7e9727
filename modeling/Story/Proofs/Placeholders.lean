import Mathlib.Data.List.Basic
import Mathlib.Data.List.Flatten
import Story.Proofs.Origins
import Story.Script.Generate

/-!
# Placeholders

Reading never stops at what it cannot make sense of. A placeholder stands in the tree for what is missing,
and a list that does not end has no closing bracket. Two passes tell about that, and this file says how
much each of them tells:

* the parser reports an error wherever it leaves something out, so a story that is read without an error
  is complete (`parseModule_complete`);
* the generator looks for placeholders in the tree. It comes to all nodes outside of quoted keys of object
  literals, each once and in the order of the text (`Node.placeholders_eq_walk`), and to no node in such a key
  (`generate_diagnostics_eq`).

The keys make a difference: a key is written into the script, and a placeholder in it as `undefined`.
-/

namespace Story

open Story.Grammar

namespace Node

/-- The place of a node that stands in for something that could not be read. -/
def placeholder? : Node → Option Span
  | .expression (.missing span) | .statement (.missing span) => some span
  | _ => none

/-- The brackets of a node that has a bracketed list. -/
def brackets? : Node → Option Brackets
  | .expression (.array _ b _) | .expression (.object _ b _) | .expression (.call _ _ b _ _)
  | .expression (.function _ _ _ _ b _ _) | .expression (.arrowBlock _ _ b _ _)
  | .expression (.arrowValue _ _ b _ _) | .statement (.function _ _ _ _ b _ _)
  | .block (.code _ b _ _) | .block (.template _ b _) => some b
  | .expression (.new _ _ b _) => b
  | _ => none

/-- Nothing is missing at the node: it is no placeholder, and if it has a list then the list is closed.
-/
structure Complete (n : Node) : Prop where
  present : n.placeholder? = none
  closed : ∀ b ∈ n.brackets?, b.closing.isSome = true

end Node

/-- All nodes of a story, in the order of the text. -/
def Module.nodes (m : Module) : List Node := m.lines.flatMap fun l => (Node.line l).nodes

/-! ### Stories that are read without an error -/

namespace Node

variable {o : Reading} {d : Nat} {n : Node}

/-- Where something is missing an error is reported. -/
theorem Origin.complete (h : n.Origin o d) (hclean : ¬o.HasError) : n.Complete := by
  -- Brackets that are open were reported, and there is no report.
  have told {b : Brackets} (hb : b.Told o) : ∀ b' ∈ some b, b'.closing.isSome = true :=
    Parser.forall_mem_some (hb.resolve_right hclean)
  cases n with
  | expression e =>
    cases e with
    | missing => exact absurd h hclean
    | array | object | call | function | arrowBlock | arrowValue => exact ⟨rfl, told h⟩
    | new _ _ b =>
      cases b with
      | none => exact ⟨rfl, nofun⟩
      | some b => exact ⟨rfl, told h⟩
    | _ => exact ⟨rfl, nofun⟩
  | statement s =>
    cases s with
    | missing => exact absurd h hclean
    | function => exact ⟨rfl, told h⟩
    | _ => exact ⟨rfl, nofun⟩
  | block b => cases b <;> exact ⟨rfl, told h⟩
  | _ => exact ⟨rfl, nofun⟩

end Node

/-- Every node of a story has an origin in its text. -/
theorem State.origin_of_mem_nodes {s : State} {path : String} {n : Node}
    (hn : n ∈ (s.parseModule path).module.nodes) :
    ∃ d, n.Origin ⟨s, (Grammar.lines s).2.reports, s.depth⟩ d := by
  obtain ⟨l, hl, hn⟩ := List.mem_flatMap.mp hn
  obtain ⟨d, hwithin⟩ := Node.mem_nodes.mp hn
  exact ⟨s.blocks + d, s.parseModule_sound path l hl d n hwithin⟩

theorem State.hasErrors_diagnostics (s : State) (path : String) :
    Diagnostic.hasErrors (s.parseModule path).diagnostics =
      Diagnostic.hasErrors (Grammar.lines s).2.reports := by
  rw [Bool.eq_iff_iff, Diagnostic.hasErrors, Diagnostic.hasErrors, List.any_eq_true, List.any_eq_true]
  exact exists_congr fun d => and_congr_left fun _ => State.mem_diagnostics

/-- **A story that is read without an error is complete:** no statement and no expression in it is a
placeholder, and all of its lists have their closing brackets. -/
theorem parseModule_complete (text path : String) (indentSize : Nat)
    (hclean : Diagnostic.hasErrors (parseModule text path indentSize).diagnostics = false) :
    ∀ n ∈ (parseModule text path indentSize).module.nodes, n.Complete := by
  intro n hn
  obtain ⟨d, horigin⟩ := State.origin_of_mem_nodes hn
  refine horigin.complete fun herror => ?_
  -- Reading starts outside of all nesting, so what is left out is told of by an error.
  have herrors := herror (Nat.zero_le _)
  rw [← State.hasErrors_diagnostics _ path] at herrors
  change Diagnostic.hasErrors (parseModule text path indentSize).diagnostics = true at herrors
  rw [hclean] at herrors
  cases herrors

/-- Lists in lists in a block of lines, after a tag that is there twice, of which a warning tells. -/
theorem parseModule_complete_lists :
    let text := "a <t> <t>\n* \x7b\n  b *f([1, x => new X], \x7b y: 2 \x7d)\n* \x7d\n"
    Diagnostic.hasErrors (parseModule text "" 2).diagnostics = false ∧
      (parseModule text "" 2).module.lines.length = 2 ∧
      ∀ n ∈ (parseModule text "" 2).module.nodes, n.Complete := by
  intro text
  have hclean : Diagnostic.hasErrors (parseModule text "" 2).diagnostics = false := by decide +kernel
  exact ⟨hclean, by decide +kernel, parseModule_complete _ _ _ hclean⟩

/-! ### Walks that leave something out -/

/-- Where each list is a part of its counterpart, all lists together are equal to all counterparts only if
each is equal to its own. -/
theorem flatMap_eq_iff_of_sublist {α β : Type} {l : List α} {f g : α → List β}
    (h : ∀ a ∈ l, (f a).Sublist (g a)) : l.flatMap f = l.flatMap g ↔ ∀ a ∈ l, f a = g a := by
  refine ⟨fun heq => ?_, List.flatMap_congr⟩
  induction l with
  | nil => exact List.forall_mem_nil _
  | cons a l ih =>
    rw [List.forall_mem_cons] at h ⊢
    rw [List.flatMap_cons, List.flatMap_cons] at heq
    -- Neither the first list nor the others can be shorter than their counterparts.
    have hlength : (f a).length = (g a).length := by
      have hsum := congrArg List.length heq
      have hothers := (List.Sublist.flatMap_right l h.2).length_le
      have hfirst := h.1.length_le
      rw [List.length_append, List.length_append] at hsum
      omega
    have hfirst : f a = g a := h.1.eq_of_length hlength
    rw [hfirst] at heq
    exact ⟨hfirst, ih h.2 (List.append_cancel_left heq)⟩

namespace Node

variable {enters : Node → Node → Bool} {n m : Node}

/-- A walk comes to some of the nodes, in their order. -/
theorem walk_sublist_nodes : (n.walk enters).Sublist n.nodes := by
  induction n using induction_children with
  | step n ih =>
    rw [walk_eq, nodes_eq]
    refine List.Sublist.cons_cons _ (List.Sublist.flatMap_right _ fun c hc => ?_)
    split
    · exact ih c hc
    · exact List.nil_sublist _

/-- A node that a walk does not come to is in a child that the walk does not enter. -/
theorem mem_walk_or_left_out (enters : Node → Node → Bool) (hm : m ∈ n.nodes) :
    m ∈ n.walk enters ∨ ∃ p ∈ n.nodes, ∃ c ∈ p.children, enters p c = false ∧ m ∈ c.nodes := by
  induction n using induction_children with
  | step n ih =>
    rw [nodes_eq, List.mem_cons, List.mem_flatMap] at hm
    rw [walk_eq, List.mem_cons, List.mem_flatMap]
    obtain rfl | ⟨c, hc, hm⟩ := hm
    · exact .inl (.inl rfl)
    -- The walk misses the node here, or else somewhere further down.
    by_cases henters : enters n c = true
    · obtain hwalk | ⟨p, hp, hleft⟩ := ih c hc hm
      · refine .inl (.inr ⟨c, hc, ?_⟩)
        rwa [if_pos henters]
      · exact .inr ⟨p, mem_nodes_of_child hc hp, hleft⟩
    · exact .inr ⟨n, self_mem_nodes, c, hc, eq_false_of_ne_true henters, hm⟩

/-- A walk finds all there is to find if and only if there is nothing in the children that it does not
enter. -/
theorem filterMap_walk_eq_iff {α : Type} {f : Node → Option α} :
    (n.walk enters).filterMap f = n.nodes.filterMap f ↔
      ∀ p ∈ n.nodes, ∀ c ∈ p.children, enters p c = false → ∀ m ∈ c.nodes, f m = none := by
  induction n using induction_children with
  | step n ih =>
    -- Child by child: one that is not entered has to be free of what is looked for.
    have hchild : ∀ c ∈ n.children,
        ((if enters n c then c.walk enters else []).filterMap f = c.nodes.filterMap f ↔
          (enters n c = false → ∀ m ∈ c.nodes, f m = none) ∧
          ∀ p ∈ c.nodes, ∀ c' ∈ p.children, enters p c' = false → ∀ m ∈ c'.nodes, f m = none) := by
      intro c hc
      by_cases henters : enters n c = true
      · rw [if_pos henters, ih c hc]
        simp [henters]
      · rw [if_neg henters, List.filterMap_nil, eq_comm, List.filterMap_eq_nil_iff]
        refine ⟨fun h => ⟨fun _ => h, fun p hp c' hc' _ m hm => ?_⟩, fun h =>
          h.1 (eq_false_of_ne_true henters)⟩
        exact h m (mem_nodes_trans hp (mem_nodes_of_child hc' hm))
    have hsublist : ∀ c ∈ n.children, ((if enters n c then c.walk enters else []).filterMap f).Sublist
        (c.nodes.filterMap f) := by
      intro c _
      split
      · exact walk_sublist_nodes.filterMap f
      · exact List.nil_sublist _
    have hself (l l' : List Node) :
        (n :: l).filterMap f = (n :: l').filterMap f ↔ l.filterMap f = l'.filterMap f := by
      cases h : f n <;> simp [h]
    rw [walk_eq, nodes_eq, hself, List.filterMap_flatMap, List.filterMap_flatMap,
      flatMap_eq_iff_of_sublist hsublist, forall₂_congr hchild, List.forall_mem_cons]
    constructor
    · intro h
      refine ⟨fun c hc => (h c hc).1, fun p hp => ?_⟩
      obtain ⟨c, hc, hp⟩ := List.mem_flatMap.mp hp
      exact (h c hc).2 p hp
    · rintro ⟨hn, hbelow⟩ c hc
      exact ⟨hn c hc, fun p hp => hbelow p (List.mem_flatMap.mpr ⟨c, hc, hp⟩)⟩

end Node

/-! ### The search for placeholders -/

namespace Node

/-- The parts of the key of a node that is a member of an object literal with a quoted key. -/
def keyParts : Node → List Node
  | .property (.quoted _ _ _ parts _) => parts.map .part
  | _ => []

/-- The search for placeholders enters all children but the parts of a quoted key. -/
def searches : Node → Node → Bool
  | .property (.quoted ..), .part _ => false
  | _, _ => true

theorem mem_keyParts_iff {n c : Node} : c ∈ n.keyParts ↔ c ∈ n.children ∧ n.searches c = false := by
  cases n with
  | property p =>
    cases p with
    | quoted span name quote parts value =>
      cases c <;> simp [keyParts, children, Property.children, searches]
    | _ => simp [keyParts, searches]
  | _ => simp [keyParts, searches]

/-- The spans of the placeholders that are found in a node. -/
def placeholders : Node → List Span
  | .expression e => e.placeholders
  | .part p => p.placeholders
  | .property p => p.placeholders
  | .parameter p => p.placeholders
  | .block b => b.placeholders
  | .statement s => s.placeholders
  | .declarator d => d.placeholders
  | .head h => h.placeholders
  | .clause c => c.placeholders
  | .key k => k.placeholders
  | .tag t => t.placeholders
  | .prototype p => p.placeholders
  | .line l => l.placeholders

/-! What is found in the items of a list, one after the other. -/

section Lists

theorem placeholders_items {α : Type} {F : α → Node} {found : List α → List Span} (hnil : found [] = [])
    (hcons : ∀ a as, found (a :: as) = (F a).placeholders ++ found as) (as : List α) :
    found as = (as.map F).flatMap placeholders := by
  induction as with
  | nil => exact hnil
  | cons a as ih => rw [hcons, ih, List.map_cons, List.flatMap_cons]

@[simp] theorem placeholders_expressions (es : List Expression) :
    Expression.placeholdersOfAll es = (es.map Node.expression).flatMap placeholders :=
  placeholders_items rfl (fun _ _ => rfl) es

@[simp] theorem placeholders_parts (ps : List TextPart) :
    TextPart.placeholdersOfAll ps = (ps.map Node.part).flatMap placeholders :=
  placeholders_items rfl (fun _ _ => rfl) ps

@[simp] theorem placeholders_properties (ps : List Property) :
    Property.placeholdersOfAll ps = (ps.map Node.property).flatMap placeholders :=
  placeholders_items rfl (fun _ _ => rfl) ps

@[simp] theorem placeholders_parameters (ps : List Parameter) :
    Parameter.placeholdersOfAll ps = (ps.map Node.parameter).flatMap placeholders :=
  placeholders_items rfl (fun _ _ => rfl) ps

@[simp] theorem placeholders_statements (ss : List Statement) :
    Statement.placeholdersOfAll ss = (ss.map Node.statement).flatMap placeholders :=
  placeholders_items rfl (fun _ _ => rfl) ss

@[simp] theorem placeholders_declarators (ds : List Declarator) :
    Declarator.placeholdersOfAll ds = (ds.map Node.declarator).flatMap placeholders :=
  placeholders_items rfl (fun _ _ => rfl) ds

@[simp] theorem placeholders_clauses (cs : List Clause) :
    Clause.placeholdersOfAll cs = (cs.map Node.clause).flatMap placeholders :=
  placeholders_items rfl (fun _ _ => rfl) cs

@[simp] theorem placeholders_tags (ts : List Tag) :
    Tag.placeholdersOfAll ts = (ts.map Node.tag).flatMap placeholders :=
  placeholders_items rfl (fun _ _ => rfl) ts

@[simp] theorem placeholders_lines (ls : List Line) :
    Line.placeholdersOfAll ls = (ls.map Node.line).flatMap placeholders :=
  placeholders_items rfl (fun _ _ => rfl) ls

@[simp] theorem placeholders_option (e : Option Expression) :
    Expression.placeholdersOption e = (e.toList.map Node.expression).flatMap placeholders := by
  cases e with
  | none => rfl
  | some e => exact (List.append_nil _).symm

@[simp] theorem placeholders_otherwise (s : Option Statement) :
    Statement.placeholdersOption s = (s.toList.map Node.statement).flatMap placeholders := by
  cases s with
  | none => rfl
  | some s => exact (List.append_nil _).symm

end Lists

/-- **One step of the search:** the node itself, then those of its children that are entered. -/
theorem placeholders_eq (n : Node) : n.placeholders =
    n.placeholder?.toList ++ n.children.flatMap fun c => if n.searches c then c.placeholders else [] := by
  -- Lists of children are the same on both sides by definition, and `rfl` says so where `simp` leaves them.
  cases n with
  | expression e =>
    cases e <;> simp [placeholders, Expression.placeholders, placeholder?, children, Expression.children,
      searches] <;> rfl
  | statement s =>
    cases s <;> simp [placeholders, Statement.placeholders, placeholder?, children, Statement.children,
      searches] <;> rfl
  | property p =>
    -- Here alone there are children that are passed over.
    cases p <;> simp [placeholders, Property.placeholders, placeholder?, children, Property.children, searches]
  | part x | parameter x | block x | declarator x | head x | clause x | key x | tag x | prototype x
  | line x =>
    cases x <;> simp [placeholders, TextPart.placeholders, Parameter.placeholders, Block.placeholders,
      Declarator.placeholders, LoopHead.placeholders, Clause.placeholders, ObjectKey.placeholders,
      Tag.placeholders, Prototype.placeholders, Line.placeholders, placeholder?, children, searches] <;> rfl

/-- The search finds the placeholders that a walk past the quoted keys comes to. -/
theorem placeholders_eq_walk (n : Node) : n.placeholders = (n.walk searches).filterMap placeholder? := by
  -- By induction on the tree: a node gives its own place and what its children give.
  induction n using induction_children with
  | step n ih =>
    have hself (l : List Node) :
        (n :: l).filterMap placeholder? = n.placeholder?.toList ++ l.filterMap placeholder? := by
      cases hplace : n.placeholder? <;> simp [hplace]
    rw [placeholders_eq, walk_eq, hself, List.filterMap_flatMap]
    congr 1
    refine List.flatMap_congr fun c hc => ?_
    split
    · exact ih c hc
    · rfl

/-- The diagnostic about a node that is a placeholder. -/
def report? (n : Node) : Option Diagnostic :=
  n.placeholder?.map fun span => Diagnostic.of .incomplete span ["syntax"]

end Node

namespace Module

/-- The nodes of a story that are not in a quoted key of an object literal, in the order of the text. -/
def searched (m : Module) : List Node := m.lines.flatMap fun l => (Node.line l).walk Node.searches

variable {m : Module}

/-- One diagnostic for each placeholder that is not in a quoted key. -/
theorem incomplete_eq (m : Module) : m.incomplete = m.searched.filterMap Node.report? := by
  have hsearched : Line.placeholdersOfAll m.lines = m.searched.filterMap Node.placeholder? := by
    rw [Node.placeholders_lines, List.flatMap_map, searched, List.filterMap_flatMap]
    exact List.flatMap_congr fun l _ => Node.placeholders_eq_walk (.line l)
  rw [incomplete, hsearched, List.map_filterMap]
  rfl

/-- Nothing escapes the search if and only if there is no placeholder in a quoted key. -/
theorem filterMap_searched_eq_iff : m.searched.filterMap Node.report? = m.nodes.filterMap Node.report? ↔
    ∀ p ∈ m.nodes, ∀ part ∈ p.keyParts, ∀ n ∈ part.nodes, n.placeholder? = none := by
  -- The search finds some of the reports, in their order, so it finds all if it does line by line.
  have hlines : m.searched.filterMap Node.report? = m.nodes.filterMap Node.report? ↔
      ∀ l ∈ m.lines, ((Node.line l).walk Node.searches).filterMap Node.report? =
        (Node.line l).nodes.filterMap Node.report? := by
    rw [searched, nodes, List.filterMap_flatMap, List.filterMap_flatMap]
    exact flatMap_eq_iff_of_sublist fun l _ => Node.walk_sublist_nodes.filterMap _
  rw [hlines]
  constructor
  · intro h p hp part hpart n hn
    obtain ⟨l, hl, hp⟩ := List.mem_flatMap.mp hp
    obtain ⟨hchild, hleft⟩ := Node.mem_keyParts_iff.mp hpart
    have hreport := Node.filterMap_walk_eq_iff.mp (h l hl) p hp part hchild hleft n hn
    exact Option.map_eq_none_iff.mp hreport
  · intro h l hl
    refine Node.filterMap_walk_eq_iff.mpr fun p hp c hc hleft n hn => ?_
    have hplace := h p (List.mem_flatMap.mpr ⟨l, hl, hp⟩) c (Node.mem_keyParts_iff.mpr ⟨hc, hleft⟩) n hn
    exact Option.map_eq_none_iff.mpr hplace

theorem mem_searched_or_in_key {n : Node} (hn : n ∈ m.nodes) :
    n ∈ m.searched ∨ ∃ p ∈ m.nodes, ∃ part ∈ p.keyParts, n ∈ part.nodes := by
  obtain ⟨l, hl, hn⟩ := List.mem_flatMap.mp hn
  obtain hwalk | ⟨p, hp, c, hc, hleft, hn⟩ := Node.mem_walk_or_left_out Node.searches hn
  · exact .inl (List.mem_flatMap.mpr ⟨l, hl, hwalk⟩)
  · exact .inr ⟨p, List.mem_flatMap.mpr ⟨l, hl, hp⟩, c, Node.mem_keyParts_iff.mpr ⟨hc, hleft⟩, hn⟩

end Module

/-- **Which placeholders the generator reports.** It reports each placeholder of a story that is not in a
quoted key of an object literal, once, at its place and in the order of the text. So all placeholders are
reported if and only if there are none in quoted keys; and if none is reported then all there are, are in
such keys. -/
theorem generate_diagnostics_eq (o : ScriptOptions) (s : State) (path : String) :
    let m := (s.parseModule path).module
    (generate o m).diagnostics = m.searched.filterMap Node.report? ∧
      ((generate o m).diagnostics = m.nodes.filterMap Node.report? ↔
        ∀ p ∈ m.nodes, ∀ part ∈ p.keyParts, ∀ n ∈ part.nodes, n.placeholder? = none) ∧
      ((generate o m).diagnostics = [] → ∀ n ∈ m.nodes, n.placeholder? ≠ none →
        ∃ p ∈ m.nodes, ∃ part ∈ p.keyParts, n ∈ part.nodes) := by
  intro m
  have hreported : (generate o m).diagnostics = m.searched.filterMap Node.report? := m.incomplete_eq
  rw [hreported]
  refine ⟨rfl, Module.filterMap_searched_eq_iff, fun hnone n hn hplace => ?_⟩
  refine (Module.mem_searched_or_in_key hn).resolve_left fun hsearched => hplace ?_
  have hreport : n.report? = none := List.filterMap_eq_nil_iff.mp hnone n hsearched
  exact Option.map_eq_none_iff.mp hreport

/-- The value in the key is a placeholder, and nothing is reported. -/
example : (parseModule "* x = \x7b 'a*()': 1 \x7d\n" "" 2).module.incomplete = [] := by decide +kernel

end Story
