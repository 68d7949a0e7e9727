import Story.Proofs.Ranges

/-!
# The imports of a story

While a story is read, every import is put on one list, and the script requires whatever is on it in the
end. Much is read and then given up, with its imports; what is left on the list is compared here with the
imports that stand in the tree (`parseModule_imports`).

All imports of the tree are on the list, in the order of the text and each once. There may be others: the
path of an import is a quoted text, so it can hold values, and a value can be a function that imports
something. Such values are not in the tree, but their imports are on the list, right before the import
in whose path they stand.

* `Node.Hides` — an import in the path of a node that is an import, or what is left of one;
* `Reads.tells` — the account of what is on the list, node by node;
* `Reads.imported` — the imports of the tree follow each other in the text.
-/

namespace Story

open Node (records)

/-- The import stands in the path of the node: not at the start of the node, but inside it. -/
def Node.Hides (n : Node) (i : Import) : Prop :=
  n.hasPath = true ∧ ∃ span ∈ n.span?, span.start.offset < i.span.start.offset ∧
    i.span.stop.offset ≤ span.stop.offset

theorem Node.span_of_hasPath {n : Node} (h : n.hasPath = true) : ∃ span, span ∈ n.span? := by
  unfold Node.hasPath at h
  split at h
  · exact ⟨_, rfl⟩
  · exact ⟨_, rfl⟩
  · cases h

theorem Node.reverse_records (n : Node) : n.records.reverse = n.records := by
  obtain h | ⟨i, rfl⟩ := n.records_cases
  · rw [h]
    rfl
  · rfl

/-- The nodes in several components, parents before children and in the order of the text. -/
def Component.allNodes (cs : List Component) : List Node := (cs.flatMap Component.nodes).flatMap Node.nodes

namespace Component

theorem allNodes_append (cs ds : List Component) : allNodes (cs ++ ds) = allNodes cs ++ allNodes ds := by
  rw [allNodes, List.flatMap_append, List.flatMap_append]
  rfl

/-- Only the nodes of the components count. -/
theorem allNodes_singleton (c : Component) : allNodes [c] = allNodes (c.nodes.map .node) := by
  rw [allNodes, allNodes, Node.flatMap_nodes_map, List.flatMap_cons, List.flatMap_nil, List.append_nil]

theorem allNodes_node (n : Node) : allNodes [.node n] = n :: allNodes n.components := by
  rw [allNodes_singleton, allNodes, allNodes, Node.flatMap_nodes_map, Node.components_nodes,
    Component.nodes, List.flatMap_cons, List.flatMap_nil, List.append_nil, Node.nodes_eq]

end Component

open Component (allNodes allNodes_append allNodes_singleton allNodes_node)

/-- **An account of a list of imports:** the nodes of a tree, each with the imports that stand in its path.
-/
structure Tells (entries : List (Node × List Import)) (nodes : List Node) (imports : List Import) :
    Prop where
  nodes_eq : entries.map Prod.fst = nodes
  imports_eq : imports = entries.flatMap fun e => e.2 ++ e.1.records
  hidden : ∀ e ∈ entries, ∀ i ∈ e.2, e.1.Hides i

namespace Tells

variable {entries entries' : List (Node × List Import)} {nodes nodes' : List Node}
  {imports imports' : List Import}

theorem nil : Tells [] [] [] := ⟨rfl, rfl, nofun⟩

theorem append (h : Tells entries nodes imports) (h' : Tells entries' nodes' imports') :
    Tells (entries ++ entries') (nodes ++ nodes') (imports ++ imports') where
  nodes_eq := by rw [List.map_append, h.nodes_eq, h'.nodes_eq]
  imports_eq := by rw [List.flatMap_append, ← h.imports_eq, ← h'.imports_eq]
  hidden := List.forall_mem_append.mpr ⟨h.hidden, h'.hidden⟩

/-- A node that is no import comes before what is inside it. -/
theorem cons (h : Tells entries nodes imports) {n : Node} (hn : n.records = []) :
    Tells ((n, []) :: entries) (n :: nodes) imports where
  nodes_eq := congrArg (n :: ·) h.nodes_eq
  imports_eq := by rw [List.flatMap_cons, hn, ← h.imports_eq]; rfl
  hidden := List.forall_mem_cons.mpr ⟨nofun, h.hidden⟩

theorem singleton {n : Node} {hidden : List Import} (h : ∀ i ∈ hidden, n.Hides i) :
    Tells [(n, hidden)] [n] (hidden ++ n.records) where
  nodes_eq := rfl
  imports_eq := by rw [List.flatMap_cons, List.flatMap_nil, List.append_nil]
  hidden := List.forall_mem_singleton.mpr h

/-- The imports of the tree are all there, in their order. -/
theorem sublist (h : Tells entries nodes imports) : (nodes.flatMap records).Sublist imports := by
  rw [← h.nodes_eq, h.imports_eq, List.flatMap_map]
  clear h
  induction entries with
  | nil => exact .slnil
  | cons e rest ih =>
    rw [List.flatMap_cons, List.flatMap_cons]
    exact (List.sublist_append_right _ _).append ih

/-- There are as many imports as in the tree and in the paths together. -/
theorem length_eq (h : Tells entries nodes imports) :
    imports.length = (nodes.flatMap records).length + (entries.flatMap Prod.snd).length := by
  rw [← h.nodes_eq, h.imports_eq, List.flatMap_map]
  clear h
  induction entries with
  | nil => rfl
  | cons e rest ih =>
    simp only [List.flatMap_cons, List.length_append, ih]
    omega

/-- Nothing but the imports of the tree is on the list if and only if no path has any. -/
theorem eq_iff (h : Tells entries nodes imports) :
    imports = nodes.flatMap records ↔ ∀ e ∈ entries, e.2 = [] := by
  have hlength := h.length_eq
  rw [← List.flatMap_eq_nil_iff]
  constructor
  · intro heq
    rw [← heq] at hlength
    exact List.eq_nil_of_length_eq_zero (by omega)
  · intro hnil
    rw [hnil, List.length_nil, Nat.add_zero] at hlength
    exact (h.sublist.eq_of_length hlength.symm).symm

end Tells

/-- Imports that stand one after the other between two places. -/
structure InRow (p q : Nat) (imports : List Import) : Prop where
  between : ∀ i ∈ imports, p ≤ i.span.start.offset ∧ i.span.stop.offset ≤ q
  ordered : imports.Pairwise fun i j => i.span.stop.offset ≤ j.span.start.offset

namespace InRow

variable {p q r : Nat} {imports imports' : List Import}

theorem nil : InRow p q [] := ⟨nofun, .nil⟩

theorem singleton {i : Import} (hp : p = i.span.start.offset) (hq : i.span.stop.offset = q) :
    InRow p q [i] :=
  ⟨List.forall_mem_singleton.mpr ⟨hp.le, hq.le⟩, List.pairwise_singleton _ _⟩

theorem widen (h : InRow p q imports) {p' q' : Nat} (hp : p' ≤ p) (hq : q ≤ q') : InRow p' q' imports where
  between i hi := ⟨hp.trans (h.between i hi).1, (h.between i hi).2.trans hq⟩
  ordered := h.ordered

theorem append (h : InRow p q imports) (h' : InRow q r imports') (hpq : p ≤ q) (hqr : q ≤ r) :
    InRow p r (imports ++ imports') where
  between := List.forall_mem_append.mpr ⟨(h.widen le_rfl hqr).between, (h'.widen hpq le_rfl).between⟩
  ordered := List.pairwise_append.mpr ⟨h.ordered, h'.ordered, fun i hi j hj =>
    (h.between i hi).2.trans (h'.between j hj).1⟩

end InRow

/-! ### What is on the list -/

section Reads

variable {start a b : Spot} {cs : List Component}

/-- **The list, node by node.** What is put on the list between two spots is accounted for by the nodes
that are read there. -/
theorem Reads.tells (hplaced : start.Placed) (h : Reads a cs b) (ha : start.Onward a) :
    ∃ entries imports, b.imports.reverse = a.imports.reverse ++ imports ∧
      Tells entries (allNodes cs) imports := by
  induction h with
  | gap h | mark h => exact ⟨[], [], by rw [h.imports, List.append_nil], .nil⟩
  | append h _ ih ih' =>
    obtain ⟨entries, imports, himports, htells⟩ := ih ha
    obtain ⟨entries', imports', himports', htells'⟩ := ih' (ha.trans h.onward)
    refine ⟨entries ++ entries', imports ++ imports', ?_, ?_⟩
    · rw [himports', himports, List.append_assoc]
    · rw [allNodes_append]
      exact htells.append htells'
  | inner _ ih | lone _ ih =>
    rw [allNodes_singleton]
    exact ih ha
  | list hopen _ hclose ih =>
    rw [allNodes_singleton, hclose.passes.imports, ← hopen.imports]
    exact ih (ha.trans hopen.toOnward)
  | node _ hrecords _ _ ih =>
    obtain ⟨entries, imports, himports, htells⟩ := ih ⟨ha.rest, ha.finish⟩
    rw [Spot.leaving, hrecords, allNodes_node]
    exact ⟨_, imports, himports, htells.cons hrecords⟩
  | @path a b c n ns hpath _ hspan hword hlater _ h _ =>
    -- Whatever is recorded for the path lies after the first word of the import.
    have hb := ha.trans hword.toOnward
    obtain ⟨new, hnew, hrecorded⟩ : ∃ new, c.imports = new ++ b.imports ∧
        Recorded (fun _ => True) b.position.offset c.position.offset new :=
      h.recorded hplaced (fun _ _ => trivial) hb
    have hstrict : a.position.offset < b.position.offset :=
      (hplaced.onward ha).offset_lt hword.toOnward hlater
    have hhides (i : Import) (hi : i ∈ new.reverse) : n.Hides i := by
      obtain ⟨hstart, hstop⟩ := hrecorded.between i (List.mem_reverse.mp hi)
      obtain ⟨span, hmem⟩ := Node.span_of_hasPath hpath
      obtain rfl := hspan span hmem
      exact ⟨hpath, _, hmem, hstrict.trans_le hstart, hstop⟩
    refine ⟨[(n, new.reverse)], new.reverse ++ n.records, ?_, ?_⟩
    · rw [Spot.leaving, List.reverse_append, hnew, List.reverse_append, hword.imports, n.reverse_records,
        List.append_assoc]
    · rw [allNodes_node, Node.components_of_hasPath hpath]
      exact .singleton hhides

/-- The imports of the tree follow each other in the text. -/
theorem Reads.imported (hplaced : start.Placed) (h : Reads a cs b) (ha : start.Onward a) :
    InRow a.position.offset b.position.offset ((allNodes cs).flatMap records) := by
  induction h with
  | gap h | mark h => exact .nil
  -- By induction on the derivation; only an import adds to the row, the other steps widen the stretch.
  | append h h' ih ih' =>
    have hb := ha.trans h.onward
    rw [allNodes_append, List.flatMap_append]
    exact (ih ha).append (ih' hb) ((hplaced.onward ha).offset_le h.onward)
      ((hplaced.onward hb).offset_le h'.onward)
  | inner _ ih | lone _ ih =>
    rw [allNodes_singleton]
    exact ih ha
  | list hopen h hclose ih =>
    have hb := ha.trans hopen.toOnward
    rw [allNodes_singleton]
    exact (ih hb).widen ((hplaced.onward ha).offset_le hopen.toOnward)
      ((hplaced.onward (hb.trans h.onward)).offset_le hclose.passes.toOnward)
  | node _ hrecords _ _ ih =>
    rw [allNodes_node, List.flatMap_cons, hrecords]
    exact ih ⟨ha.rest, ha.finish⟩
  -- Nothing in the tree stands below an import.
  | @path a b c n ns hpath _ hspan hword hlater _ h _ =>
    rw [allNodes_node, Node.components_of_hasPath hpath, List.flatMap_cons]
    obtain hnone | ⟨i, rfl⟩ := n.records_cases
    · rw [hnone]
      exact .nil
    · have hi : i.span = ⟨a.position, c.position⟩ := hspan i.span rfl
      exact .singleton (by rw [hi]) (by rw [hi]; rfl)

end Reads

/-! ### A whole story -/

/-- **The imports of a story.** The list holds no import twice. It is made by going through the tree in the
order of the text: for each node there are first the imports in its path, if it is an import or what is left
of one, and then the node itself if it is an import. So all imports of the tree are on it, one after the
other as they stand in the text, and it holds nothing else if and only if no path has imports in it. -/
theorem parseModule_imports (text path : String) (indentSize : Nat) :
    let m := (parseModule text path indentSize).module
    let tree := m.lines.flatMap fun l => (Node.line l).nodes
    let inTree := tree.flatMap Node.records
    m.imports.Nodup ∧ inTree.Sublist m.imports ∧
    inTree.Pairwise (fun i j => i.span.stop.offset ≤ j.span.start.offset) ∧
    ∃ entries : List (Node × List Import), entries.map Prod.fst = tree ∧
      m.imports = entries.flatMap (fun e => e.2 ++ e.1.records) ∧
      (∀ e ∈ entries, ∀ i ∈ e.2, e.1.Hides i) ∧
      (m.imports = inTree ↔ ∀ e ∈ entries, e.2 = []) := by
  intro m tree inTree
  obtain ⟨b, hreads, -, -, himports⟩ := parseModule_reads text path indentSize
  have hplaced : (State.ofText text indentSize).spot.Placed := (State.placed_ofText text indentSize).spot
  have hself := Spot.Onward.refl (State.ofText text indentSize).spot
  have htree : allNodes ((m.lines.map Node.line).map .node) = tree := by
    rw [allNodes, Node.flatMap_nodes_map, List.flatMap_map]
  obtain ⟨new, hnew, hrecorded⟩ := hreads.recorded hplaced (fun c hc => isBoundary_of_onward hc) hself
  obtain ⟨entries, imports, hlist, htells⟩ := hreads.tells hplaced hself
  have hm : m.imports = imports := himports.trans hlist
  rw [htree, ← hm] at htells
  have hrow := hreads.imported hplaced hself
  rw [htree] at hrow
  refine ⟨?_, htells.sublist, hrow.ordered, entries, htells.nodes_eq, htells.imports_eq, htells.hidden,
    htells.eq_iff⟩
  have hnew : b.imports = new := hnew.trans (List.append_nil new)
  rw [show m.imports = b.imports.reverse from himports, hnew]
  exact List.pairwise_reverse.mpr (hrecorded.nodup.imp Ne.symm)

end Story
