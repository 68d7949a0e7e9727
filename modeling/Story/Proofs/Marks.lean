import Story.Proofs.Composition

/-!
# The marks of a script

A mark in a script names the place of the story that the words after it come from. All marks come from
the tree, and no other places are marked than those that a node stands for (`Node.places`): where it starts, and
where its declared name or the line without its indentation starts.

* `Node.WrittenFrom.marks` — what is written for a node has marks at the places of the nodes in it only;
* `Module.script_marks` — a whole script also has marks at its imports;
* `Reads.places` — in a tree that was read, all places are places where a token was current.
-/

namespace Story

open Script (MarksIn)

section

variable {o : ScriptOptions} {P : Position → Prop} {before : List Script} {s s' : IndentScope} {own : Script}

namespace Node

/-- If each of several nodes keeps to places as `P` says, given that those before it do, then all of them do. -/
theorem Sequence.marks {ns : List Node} {scripts : List Script} (h : Sequence o before s ns scripts s')
    (hbefore : ∀ x ∈ before, MarksIn P x)
    (hns : ∀ n ∈ ns, ∀ before s own s', n.WrittenFrom o before s own s' → (∀ x ∈ before, MarksIn P x) →
      MarksIn P own) : ∀ x ∈ scripts, MarksIn P x := by
  induction h with
  | nil => nofun
  | cons hn _ ih =>
    have hown := hns _ List.mem_cons_self _ _ _ _ hn hbefore
    refine List.forall_mem_cons.mpr ⟨hown, ih ?_ fun m hm => hns m (List.mem_cons_of_mem _ hm)⟩
    exact List.forall_mem_append.mpr ⟨hbefore, List.forall_mem_singleton.mpr hown⟩

/-- **What is written for a node has marks at the places of the nodes in it only.** -/
theorem WrittenFrom.marks {n : Node} (h : n.WrittenFrom o before s own s') (hP : n.PlacesIn P)
    (hbefore : ∀ x ∈ before, MarksIn P x) : MarksIn P own := by
  induction n using induction_children generalizing before s own s' with
  | step n ih =>
    obtain ⟨scripts, t, hseq, hown, -⟩ := h.composed hP hbefore
    have hscripts : ∀ x ∈ scripts, MarksIn P x := by
      refine hseq.marks (List.forall_mem_nil _) fun c hc before s own s' hwritten hbefore => ?_
      have hchild := mem_children_of_mem_written hc
      exact ih c hchild hwritten (hP.child hchild) hbefore
    intro p hp
    obtain hplace | ⟨x, hx, hmark⟩ := hown.marks p hp
    · exact hplace
    · exact hscripts x hx p hmark

end Node

end

/-! ### Places of trees that were read -/

/-- **Every place of what is read is a place where a token was current.** -/
theorem Reads.places {P : Position → Prop} {start a b : Spot} {cs : List Component}
    (hplace : ∀ c, start.Onward c → P c.position) (h : Reads a cs b) (ha : start.Onward a) :
    (∀ x ∈ cs, ∀ p ∈ x.place?, P p) ∧ ∀ n ∈ cs.flatMap Component.nodes, n.PlacesIn P := by
  -- A node is placed if what it is made of is.
  have hnode {a c : Spot} {n : Node} (ha : start.Onward a)
      (hspan : ∀ span ∈ n.span?, span = ⟨a.position, c.position⟩)
      (hown : ∀ x ∈ n.components, ∀ p ∈ x.place?, P p)
      (hbelow : ∀ m ∈ n.components.flatMap Component.nodes, m.PlacesIn P) : n.PlacesIn P := by
    rw [Node.components_nodes] at hbelow
    refine Node.placesIn_iff.mpr ⟨List.forall_mem_append.mpr ⟨?_, ?_⟩, hbelow⟩
    · intro p hp
      obtain ⟨span, hmem, rfl⟩ := List.mem_map.mp hp
      rw [hspan span (Option.mem_toList.mp hmem)]
      exact hplace _ ha
    · intro p hp
      obtain ⟨x, hx, hp⟩ := List.mem_filterMap.mp hp
      exact hown x hx p hp
  induction h with
  | gap => exact ⟨nofun, nofun⟩
  | append h h' ih ih' =>
    obtain ⟨hown, hbelow⟩ := ih ha
    obtain ⟨hown', hbelow'⟩ := ih' (ha.trans h.onward)
    rw [List.flatMap_append]
    exact ⟨List.forall_mem_append.mpr ⟨hown, hown'⟩, List.forall_mem_append.mpr ⟨hbelow, hbelow'⟩⟩
  | mark h => simpa [Component.place?, Component.nodes] using hplace _ ha
  | inner h ih =>
    rw [Node.flatMap_nodes_map] at ih
    simpa [Component.place?, Component.nodes] using ⟨hplace _ ha, (ih ha).2⟩
  | list hopen h hclose ih =>
    rw [Node.flatMap_nodes_map] at ih
    simpa [Component.place?, Component.nodes] using (ih (ha.trans hopen.toOnward)).2
  | lone h ih => simpa [Component.place?, Component.nodes] using (ih ha).2
  | @node a c n hspan _ hname h ih =>
    obtain ⟨hown, hbelow⟩ := ih ⟨ha.rest, ha.finish⟩
    simpa [Component.place?, Component.nodes] using hnode ha hspan hown hbelow
  | @path a _ c n ns hpath _ hspan _ _ _ _ _ =>
    have hnone := Node.components_of_hasPath hpath
    have hn : n.PlacesIn P := hnode ha hspan (by rw [hnone]; nofun) (by rw [hnone]; nofun)
    simpa [Component.place?, Component.nodes] using hn

end Story
